import McpTracer.Proxy.SubscriptionFrames

/-! What is recorded of a subscription that is replayed.

Frames are checked against the recording. A terminal response is recorded whenever it comes, so the
evidence is in order if and only if the target sends it in order.
-/

set_option autoImplicit false

namespace McpTracer.Proxy.HttpReplay
open McpTracer.Foundation McpTracer.Json McpTracer.Protocol McpTracer.Storage

/-! ## Evidence -/

/-- A notification of a subscription. -/
structure Notifies (subscriptionId payload : Value) (method : String) : Prop where
  jsonrpc : (payload.get "jsonrpc").bind Value.asStr = some "2.0"
  anonymous : payload.get "id" = none
  subscription : (subscriptionIdFromNotification payload).any (fun id => id.beq subscriptionId) = true
  method : methodOf payload = some method

/-- The acknowledgment accepts exactly what was accepted in the recording. -/
def Acknowledges (expectation : SubscriptionExpectation) (payload : Value) : Prop :=
  Notifies expectation.subscriptionId payload "notifications/subscriptions/acknowledged" ∧
    ∃ notifications, payload.getPath ["params", "notifications"] = some notifications ∧
      subscriptionFilterFromValue notifications "subscription acknowledgment" = .ok expectation.acceptedFilter

/-- A filter lets a notification through. -/
def SubscriptionFilter.Permits (filter : SubscriptionFilter) (payload : Value) (method : String) : Prop :=
  (method = "notifications/tools/list_changed" ∧ filter.toolsListChanged = true) ∨
  (method = "notifications/prompts/list_changed" ∧ filter.promptsListChanged = true) ∨
  (method = "notifications/resources/list_changed" ∧ filter.resourcesListChanged = true) ∨
  (method = "notifications/resources/updated" ∧ ∃ uri ∈ filter.resourceSubscriptions,
    (payload.getPath ["params", "uri"]).bind Value.asStr = some uri)

def Notification (expectation : SubscriptionExpectation) (payload : Value) : Prop :=
  ∃ method, Notifies expectation.subscriptionId payload method ∧ expectation.acceptedFilter.Permits payload method

/-- An acknowledgment, then notifications, and at most one terminal response at the end. -/
def Evidence (expectation : SubscriptionExpectation) (recorded : List Value) : Prop :=
  recorded = [] ∨ ∃ acknowledgment notifications ending, recorded = acknowledgment :: (notifications ++ ending) ∧
    Acknowledges expectation acknowledgment ∧ (∀ payload ∈ notifications, Notification expectation payload) ∧
    notifications.length + 1 ≤ expectation.expectedFrames ∧ ending.length ≤ 1 ∧
    ∀ payload ∈ ending, isSubscriptionTerminalResponse payload expectation.subscriptionId = true

/-! ## The checks -/

section
variable {expectation : SubscriptionExpectation} {payload subscriptionId : Value} {filter : SubscriptionFilter}

theorem frameMethod_eq_ok_iff {method : String} :
    frameMethod payload subscriptionId = .ok method ↔ Notifies subscriptionId payload method := by
  simp only [frameMethod, bind_eq_ok_iff, ensure_eq_ok_iff, require_eq_ok_iff, decide_eq_true_eq, Option.isNone_iff_eq_none]
  constructor
  · rintro ⟨-, jsonrpc, -, anonymous, -, subscription, method⟩
    exact ⟨jsonrpc, anonymous, subscription, method⟩
  · rintro ⟨jsonrpc, anonymous, subscription, method⟩
    exact ⟨(), jsonrpc, (), anonymous, (), subscription, method⟩

theorem validateNotification_eq_ok {method : String} {done : Unit}
    (valid : validateNotification payload filter method = .ok done) : filter.Permits payload method := by
  unfold validateNotification at valid
  split at valid
  case h_1 => exact .inl ⟨rfl, ensure_eq_ok_iff.1 valid⟩
  case h_2 => exact .inr (.inl ⟨rfl, ensure_eq_ok_iff.1 valid⟩)
  case h_3 => exact .inr (.inr (.inl ⟨rfl, ensure_eq_ok_iff.1 valid⟩))
  case h_4 =>
    split at valid
    case isTrue => cases valid
    case isFalse =>
      split at valid
      case h_1 uri found =>
        exact .inr (.inr (.inr ⟨rfl, uri, List.contains_iff_mem.1 (ensure_eq_ok_iff.1 valid), found⟩))
      case h_2 => cases valid
  case h_5 => cases valid

/-- Every frame that passes is a notification of the subscription. -/
theorem notifies_of_validated {frameIndex : Nat} {done : Unit}
    (valid : validateSubscriptionNotification payload subscriptionId filter frameIndex = .ok done) :
    ∃ method, Notifies subscriptionId payload method ∧
      (if frameIndex = 0 then (validateAcknowledgment payload filter method).map fun _ => ()
        else validateNotification payload filter method) = .ok done := by
  obtain ⟨method, framed, checked⟩ := bind_eq_ok_iff.1 valid
  exact ⟨method, frameMethod_eq_ok_iff.1 framed, checked⟩

theorem acknowledgmentFilter_eq_ok {accepted : SubscriptionFilter}
    (valid : subscriptionAcknowledgmentFilter payload subscriptionId filter = .ok accepted) :
    Notifies subscriptionId payload "notifications/subscriptions/acknowledged" ∧
      ∃ notifications, payload.getPath ["params", "notifications"] = some notifications ∧
        subscriptionFilterFromValue notifications "subscription acknowledgment" = .ok accepted := by
  obtain ⟨done, checked, notifications, found, parsed⟩ : ∃ done, validateSubscriptionNotification payload subscriptionId
      filter 0 = .ok done ∧ ∃ notifications, payload.getPath ["params", "notifications"] = some notifications ∧
      subscriptionFilterFromValue notifications "subscription acknowledgment" = .ok accepted := by
    simpa only [subscriptionAcknowledgmentFilter, bind_eq_ok_iff, require_eq_ok_iff] using valid
  obtain ⟨method, notifies, acknowledged⟩ := notifies_of_validated checked
  have named : method = "notifications/subscriptions/acknowledged" := by
    rw [if_pos rfl] at acknowledged
    cases first : validateAcknowledgment payload filter method with
    | error err =>
      rw [first] at acknowledged
      cases acknowledged
    | ok accepted =>
      simp only [validateAcknowledgment, bind_eq_ok_iff, ensure_eq_ok_iff, decide_eq_true_eq] at first
      exact first.choose_spec.1
  exact ⟨named ▸ notifies, notifications, found, parsed⟩

/-- A terminal response has an id, so it is no notification. -/
theorem not_terminal_of_notifies {method : String} (notifies : Notifies subscriptionId payload method) :
    isSubscriptionTerminalResponse payload subscriptionId = false := by
  rw [isSubscriptionTerminalResponse, notifies.anonymous]
  rfl

end

/-! ## Verdicts on events -/

inductive Verdict where
  | refused (err : String)
  | terminal (payload : Value)
  | frame (payload : Value)

def frameVerdict (expectation : SubscriptionExpectation) (frameIndex : Nat) (payload : Value) : Verdict :=
  if isSubscriptionTerminalResponse payload expectation.subscriptionId then .terminal payload
  else
    match SubscriptionCapture.validateFrame expectation frameIndex payload with
    | .error err => .refused err
    | .ok () => .frame payload

/-- What becomes of an event after this many frames. -/
def verdict (fromSlice : List UInt8 → Option Value) (expectation : SubscriptionExpectation) (frameIndex : Nat)
    (event : SseEvent) : Verdict :=
  match SubscriptionCapture.eventPayload fromSlice event with
  | .error err => .refused err
  | .ok payload => frameVerdict expectation frameIndex payload

def Verdict.isRefused : Verdict → Bool
  | .refused _ => true
  | _ => false

/-- What is recorded of events that come after this many frames. -/
def accepted (fromSlice : List UInt8 → Option Value) (expectation : SubscriptionExpectation) :
    Nat → List SseEvent → List Value
  | _, [] => []
  | frames, event :: rest =>
    match verdict fromSlice expectation frames event with
    | .refused _ => []
    | .terminal payload => payload :: accepted fromSlice expectation frames rest
    | .frame payload => payload :: accepted fromSlice expectation (frames + 1) rest

/-- Among events that come after this many frames: the first terminal response comes after some frame, and what
follows it is refused. -/
def OrderlyFrom (fromSlice : List UInt8 → Option Value) (expectation : SubscriptionExpectation) (frames : Nat)
    (events : List SseEvent) : Prop :=
  ∀ before event after payload, events = before ++ event :: after →
    (∀ (index : Nat) earlier, before[index]? = some earlier →
      ∃ payload, verdict fromSlice expectation (frames + index) earlier = .frame payload) →
    verdict fromSlice expectation (frames + before.length) event = .terminal payload →
    0 < frames + before.length ∧
      ∀ next ∈ after.head?, (verdict fromSlice expectation (frames + before.length) next).isRefused = true

section
variable {fromSlice : List UInt8 → Option Value} {expectation : SubscriptionExpectation}

theorem captureSubscriptionEvent_eq (capture : SubscriptionCapture) (event : SseEvent) :
    capture.captureSubscriptionEvent fromSlice expectation event =
      match verdict fromSlice expectation capture.receivedFrames event with
      | .refused err => .error err
      | .terminal payload => .ok (capture.recordBytes payload)
      | .frame payload => .ok (capture.countFrame payload) := by
  unfold SubscriptionCapture.captureSubscriptionEvent verdict
  cases SubscriptionCapture.eventPayload fromSlice event with
  | error err => rfl
  | ok payload =>
    change (if isSubscriptionTerminalResponse payload expectation.subscriptionId then _ else _) = _
    dsimp only
    rw [frameVerdict]
    cases isSubscriptionTerminalResponse payload expectation.subscriptionId with
    | true => rfl
    | false => cases SubscriptionCapture.validateFrame expectation capture.receivedFrames payload <;> rfl

/-- An event with a payload is terminal, or it is checked as a frame. -/
theorem verdict_cases {frames : Nat} {event : SseEvent} {payload : Value} :
    (verdict fromSlice expectation frames event = .terminal payload →
      isSubscriptionTerminalResponse payload expectation.subscriptionId = true) ∧
    (verdict fromSlice expectation frames event = .frame payload →
      isSubscriptionTerminalResponse payload expectation.subscriptionId = false ∧
        SubscriptionCapture.validateFrame expectation frames payload = .ok ()) := by
  unfold verdict
  cases SubscriptionCapture.eventPayload fromSlice event with
  | error err => exact ⟨(nomatch ·), (nomatch ·)⟩
  | ok read =>
    dsimp only [frameVerdict]
    cases terminal : isSubscriptionTerminalResponse read expectation.subscriptionId with
    | true =>
      refine ⟨fun same => ?_, (nomatch ·)⟩
      cases same
      exact terminal
    | false =>
      cases valid : SubscriptionCapture.validateFrame expectation frames read with
      | error err => exact ⟨(nomatch ·), (nomatch ·)⟩
      | ok done =>
        refine ⟨(nomatch ·), fun same => ?_⟩
        cases same
        exact ⟨terminal, valid⟩

/-- What a frame has passed. -/
theorem verdict_frame {frames : Nat} {event : SseEvent} {payload : Value}
    (frame : verdict fromSlice expectation frames event = .frame payload) :
    frames < expectation.expectedFrames ∧ (frames = 0 → Acknowledges expectation payload) ∧
      (0 < frames → Notification expectation payload) := by
  have valid := (verdict_cases.2 frame).2
  simp only [SubscriptionCapture.validateFrame, bind_eq_ok_iff, ensure_eq_ok_iff, decide_eq_true_eq] at valid
  obtain ⟨-, room, checked⟩ := valid
  refine ⟨room, fun first => ?_, fun later => ?_⟩
  · rw [if_pos first] at checked
    obtain ⟨filter, acknowledged, same⟩ := bind_eq_ok_iff.1 checked
    obtain rfl : filter = expectation.acceptedFilter := of_decide_eq_true (ensure_eq_ok_iff.1 same)
    exact acknowledgmentFilter_eq_ok acknowledged
  · have notFirst : ¬ frames = 0 := by omega
    rw [if_neg notFirst] at checked
    obtain ⟨method, notifies, permitted⟩ := notifies_of_validated checked
    rw [if_neg notFirst] at permitted
    exact ⟨method, notifies, validateNotification_eq_ok permitted⟩

theorem not_terminal_of_frame {frames : Nat} {event : SseEvent} {payload : Value}
    (frame : verdict fromSlice expectation frames event = .frame payload) :
    isSubscriptionTerminalResponse payload expectation.subscriptionId = false := (verdict_cases.2 frame).1

/-- Only the first event and those right behind a terminal response matter. -/
theorem orderlyFrom_cons (frames : Nat) (event : SseEvent) (rest : List SseEvent) :
    OrderlyFrom fromSlice expectation frames (event :: rest) ↔
      match verdict fromSlice expectation frames event with
      | .refused _ => True
      | .terminal _ => 0 < frames ∧ ∀ next ∈ rest.head?, (verdict fromSlice expectation frames next).isRefused = true
      | .frame _ => OrderlyFrom fromSlice expectation (frames + 1) rest := by
  constructor
  · intro orderly
    cases here : verdict fromSlice expectation frames event with
    | refused err => trivial
    | terminal payload => exact orderly [] event rest payload rfl (by simp) here
    | frame payload =>
      intro before event' after payload' split framed terminal
      have shift : frames + 1 + before.length = frames + (event :: before).length := by
        rw [List.length_cons]
        omega
      rw [shift] at terminal ⊢
      refine orderly (event :: before) event' after payload' (by rw [split]; rfl) ?_ terminal
      intro index earlier found
      cases index with
      | zero =>
        obtain rfl : event = earlier := by simpa using found
        exact ⟨payload, here⟩
      | succ index =>
        rw [← Nat.add_assoc, Nat.add_right_comm]
        exact framed index earlier (by simpa using found)
  · intro orderly before event' after payload' split framed terminal
    cases before with
    | nil =>
      obtain ⟨rfl, rfl⟩ := List.cons.inj split
      rw [List.length_nil, Nat.add_zero] at terminal ⊢
      rw [terminal] at orderly
      exact orderly
    | cons first before =>
      obtain ⟨rfl, rfl⟩ := List.cons.inj split
      obtain ⟨payload, here⟩ := framed 0 event rfl
      rw [Nat.add_zero] at here
      rw [here] at orderly
      have shift : frames + (event :: before).length = frames + 1 + before.length := by
        rw [List.length_cons]
        omega
      rw [shift] at terminal ⊢
      refine orderly before event' after payload' rfl (fun index earlier found => ?_) terminal
      have later := framed (index + 1) earlier (by simpa using found)
      rwa [← Nat.add_assoc, Nat.add_right_comm] at later

/-! ## Evidence is in order where the target is -/

/-- The notifications after some frames, with at most one terminal response at the end. -/
def Remainder (expectation : SubscriptionExpectation) (recorded : List Value) : Prop :=
  ∃ notifications ending, recorded = notifications ++ ending ∧
    (∀ payload ∈ notifications, Notification expectation payload) ∧ ending.length ≤ 1 ∧
    ∀ payload ∈ ending, isSubscriptionTerminalResponse payload expectation.subscriptionId = true

theorem not_terminal_of_notification {payload : Value} (notification : Notification expectation payload) :
    isSubscriptionTerminalResponse payload expectation.subscriptionId = false :=
  not_terminal_of_notifies notification.choose_spec.1

theorem accepted_eq_nil_of_refused {frames : Nat} {events : List SseEvent}
    (refused : ∀ next ∈ events.head?, (verdict fromSlice expectation frames next).isRefused = true) :
    accepted fromSlice expectation frames events = [] := by
  cases events with
  | nil => rfl
  | cons event rest =>
    have first := refused event rfl
    unfold accepted
    cases here : verdict fromSlice expectation frames event with
    | refused err => rfl
    | terminal payload => simp [here, Verdict.isRefused] at first
    | frame payload => simp [here, Verdict.isRefused] at first

theorem refused_of_accepted_eq_nil {frames : Nat} {events : List SseEvent}
    (silent : accepted fromSlice expectation frames events = []) :
    ∀ next ∈ events.head?, (verdict fromSlice expectation frames next).isRefused = true := by
  cases events with
  | nil => simp
  | cons event rest =>
    intro next first
    obtain rfl : event = next := by simpa using first
    unfold accepted at silent
    cases here : verdict fromSlice expectation frames event with
    | refused err => rfl
    | terminal payload => simp [here] at silent
    | frame payload => simp [here] at silent

/-- The count of the frames never exceeds what the recording has. -/
theorem accepted_frames_le (fromSlice : List UInt8 → Option Value) (frames : Nat) (events : List SseEvent) (within : frames ≤ expectation.expectedFrames) :
    frames + (accepted fromSlice expectation frames events).countP
      (fun payload => !isSubscriptionTerminalResponse payload expectation.subscriptionId) ≤
        expectation.expectedFrames := by
  induction events generalizing frames with
  | nil => simpa [accepted] using within
  | cons event rest ih =>
    unfold accepted
    cases here : verdict fromSlice expectation frames event with
    | refused err => simpa using within
    | terminal payload =>
      have terminal := verdict_cases.1 here
      simpa [terminal] using ih frames within
    | frame payload =>
      have frame := not_terminal_of_frame here
      have later := ih (frames + 1) (verdict_frame here).1
      simp only [List.countP_cons, frame, Bool.not_false, if_true]
      omega

/-- After the acknowledgment, what is recorded is in order if and only if the events are. -/
theorem remainder_iff {frames : Nat} (acknowledged : 0 < frames) (events : List SseEvent) :
    Remainder expectation (accepted fromSlice expectation frames events) ↔
      OrderlyFrom fromSlice expectation frames events := by
  induction events generalizing frames with
  | nil => exact ⟨fun _ => by simp [OrderlyFrom], fun _ => ⟨[], [], rfl, by simp, by simp, by simp⟩⟩
  | cons event rest ih =>
    rw [orderlyFrom_cons]
    unfold accepted
    cases here : verdict fromSlice expectation frames event with
    | refused err => exact ⟨fun _ => trivial, fun _ => ⟨[], [], rfl, by simp, by simp, by simp⟩⟩
    | terminal payload =>
      have terminal := verdict_cases.1 here
      constructor
      · rintro ⟨notifications, ending, split, permitted, short, -⟩
        have none_left : notifications = [] := by
          cases notifications with
          | nil => rfl
          | cons first others =>
            obtain rfl : payload = first := (List.cons.inj split).1
            have frame := not_terminal_of_notification (permitted payload List.mem_cons_self)
            simp [terminal] at frame
        rw [none_left, List.nil_append] at split
        have silent : accepted fromSlice expectation frames rest = [] := by
          rw [← split, List.length_cons] at short
          exact List.eq_nil_of_length_eq_zero (by omega)
        exact ⟨acknowledged, refused_of_accepted_eq_nil silent⟩
      · rintro ⟨-, refused⟩
        exact ⟨[], [payload], by rw [accepted_eq_nil_of_refused refused]; rfl, by simp, by simp, by simpa using terminal⟩
    | frame payload =>
      have frame := not_terminal_of_frame here
      refine Iff.trans ⟨?_, ?_⟩ (ih (Nat.succ_pos frames))
      · rintro ⟨notifications, ending, split, permitted, short, terminal⟩
        cases notifications with
        | nil =>
          have first := terminal payload (by rw [← show _ = ending from split]; exact List.mem_cons_self)
          simp [frame] at first
        | cons first others =>
          exact ⟨others, ending, (List.cons.inj split).2, fun other member => permitted other (.tail _ member), short, terminal⟩
      · rintro ⟨notifications, ending, split, permitted, short, terminal⟩
        refine ⟨payload :: notifications, ending, by rw [split]; rfl, fun other member => ?_, short, terminal⟩
        rcases List.mem_cons.1 member with rfl | later
        · exact (verdict_frame here).2.2 acknowledged
        · exact permitted other later

/-- What is recorded of a stream is in order if and only if the stream is. -/
theorem evidence_iff (events : List SseEvent) :
    Evidence expectation (accepted fromSlice expectation 0 events) ↔ OrderlyFrom fromSlice expectation 0 events := by
  cases events with
  | nil => exact ⟨fun _ => by simp [OrderlyFrom], fun _ => .inl rfl⟩
  | cons event rest =>
    rw [orderlyFrom_cons]
    have within := accepted_frames_le fromSlice 0 (event :: rest) (Nat.zero_le expectation.expectedFrames)
    unfold accepted at within ⊢
    cases here : verdict fromSlice expectation 0 event with
    | refused err => exact ⟨fun _ => trivial, fun _ => .inl rfl⟩
    | terminal payload =>
      have terminal := verdict_cases.1 here
      refine ⟨?_, fun impossible => absurd impossible.1 (Nat.lt_irrefl 0)⟩
      rintro (nothing | ⟨acknowledgment, notifications, ending, split, acknowledges, -⟩)
      · cases nothing
      · obtain rfl : payload = acknowledgment := (List.cons.inj split).1
        have frame := not_terminal_of_notifies acknowledges.1
        simp [terminal] at frame
    | frame payload =>
      have frame := not_terminal_of_frame here
      refine Iff.trans ⟨?_, ?_⟩ (remainder_iff (Nat.succ_pos 0) rest)
      · rintro (nothing | ⟨acknowledgment, notifications, ending, split, -, permitted, -, short, terminal⟩)
        · cases nothing
        · exact ⟨notifications, ending, (List.cons.inj split).2, permitted, short, terminal⟩
      · rintro ⟨notifications, ending, split, permitted, short, terminal⟩
        refine .inr ⟨payload, notifications, ending, by rw [split], (verdict_frame here).2.1 rfl, permitted, ?_, short, terminal⟩
        have counted : notifications.countP
            (fun payload => !isSubscriptionTerminalResponse payload expectation.subscriptionId) = notifications.length :=
          List.countP_eq_length.2 fun other member => by simp [not_terminal_of_notification (permitted other member)]
        rw [here] at within
        simp only [split, List.countP_cons, List.countP_append, counted, frame] at within
        simp at within
        omega

/-! ## The run over a stream -/

namespace SubscriptionCapture

theorem captureEvents_recorded (capture : SubscriptionCapture) (events : List SseEvent) :
    (capture.captureEvents fromSlice expectation events).1.recorded =
      capture.recorded ++ accepted fromSlice expectation capture.receivedFrames events := by
  induction events generalizing capture with
  | nil => simp [captureEvents, accepted]
  | cons event rest ih =>
    rw [captureEvents, captureSubscriptionEvent_eq, accepted]
    cases verdict fromSlice expectation capture.receivedFrames event with
    | refused err => exact (List.append_nil _).symm
    | terminal payload =>
      refine (ih (capture.recordBytes payload)).trans ?_
      simp [recordBytes]
    | frame payload =>
      refine (ih (capture.countFrame payload)).trans ?_
      unfold countFrame
      dsimp only
      split <;> simp [recordBytes, signalAcknowledgment]

theorem captureEvents_append (capture : SubscriptionCapture) (first second : List SseEvent) :
    capture.captureEvents fromSlice expectation (first ++ second) =
      match capture.captureEvents fromSlice expectation first with
      | (capture, .ok ()) => capture.captureEvents fromSlice expectation second
      | (capture, .error err) => (capture, .error err) := by
  induction first generalizing capture with
  | nil => rfl
  | cons event rest ih =>
    rw [List.cons_append, captureEvents, captureEvents]
    cases capture.captureSubscriptionEvent fromSlice expectation event with
    | error err => rfl
    | ok next => exact ih next

/-- A stream that is read to its end is read as the events that it decodes to. -/
theorem captureSubscriptionResponse_eq (chunks : List (List UInt8)) :
    captureSubscriptionResponse fromSlice expectation chunks none =
      match start.captureEvents fromSlice expectation (SseDecoder.decode chunks) with
      | (capture, .ok ()) => capture.finishStream expectation
      | (capture, .error err) => (capture, .error err) := by
  rw [SseDecoder.decode, captureEvents_append, captureSubscriptionResponse]
  dsimp only
  cases start.captureEvents fromSlice expectation (feed SseDecoder.push .default chunks).2 with
  | mk capture outcome =>
    cases outcome with
    | error err => rfl
    | ok done =>
      dsimp only
      cases capture.captureEvents fromSlice expectation (feed SseDecoder.push .default chunks).1.finish.2 with
      | mk capture outcome => cases outcome <;> rfl

end SubscriptionCapture

end

/-- How many of the recorded messages are frames. -/
def framesOf (expectation : SubscriptionExpectation) (recorded : List Value) : Nat :=
  recorded.countP fun payload => !isSubscriptionTerminalResponse payload expectation.subscriptionId

/-- The counter counts the frames, and the first of them is reported. -/
structure Counted (expectation : SubscriptionExpectation) (capture : SubscriptionCapture) : Prop where
  frames : capture.receivedFrames = framesOf expectation capture.recorded
  reported : 0 < capture.receivedFrames → capture.acknowledgment ≠ none

section
variable {fromSlice : List UInt8 → Option Value} {expectation : SubscriptionExpectation} {capture : SubscriptionCapture}

theorem Counted.captureEvents (counted : Counted expectation capture) (fromSlice : List UInt8 → Option Value) (events : List SseEvent) :
    Counted expectation (capture.captureEvents fromSlice expectation events).1 := by
  induction events generalizing capture with
  | nil => exact counted
  | cons event rest ih =>
    rw [SubscriptionCapture.captureEvents, captureSubscriptionEvent_eq]
    cases here : verdict fromSlice expectation capture.receivedFrames event with
    | refused err => exact ⟨counted.frames, fun _ => by simp [SubscriptionCapture.signalAcknowledgment]⟩
    | terminal payload =>
      have terminal := verdict_cases.1 here
      refine ih ⟨?_, counted.reported⟩
      rw [SubscriptionCapture.recordBytes, framesOf, List.countP_append, List.countP_singleton, terminal]
      exact counted.frames
    | frame payload =>
      have frame := not_terminal_of_frame here
      refine ih ?_
      have one_more : capture.receivedFrames + 1 = framesOf expectation (capture.recorded ++ [payload]) := by
        rw [framesOf, List.countP_append, List.countP_singleton, frame, counted.frames]
        rfl
      unfold SubscriptionCapture.countFrame
      dsimp only
      split
      case isTrue => exact ⟨one_more, fun _ => by simp [SubscriptionCapture.signalAcknowledgment]⟩
      case isFalse later => exact ⟨one_more, fun _ => counted.reported (Nat.pos_of_ne_zero later)⟩

theorem counted_start (expectation : SubscriptionExpectation) : Counted expectation .start :=
  ⟨rfl, fun impossible => absurd impossible (Nat.lt_irrefl 0)⟩

/-- A response is accepted only with all frames of the recording. -/
theorem framesOf_of_accepted {chunks : List (List UInt8)} {readFailure : Option String}
    (ok : (SubscriptionCapture.captureSubscriptionResponse fromSlice expectation chunks readFailure).2 = .ok ()) :
    framesOf expectation (SubscriptionCapture.captureSubscriptionResponse fromSlice expectation chunks
      readFailure).1.recorded = expectation.expectedFrames := by
  cases readFailure with
  | some failure =>
    rw [SubscriptionCapture.captureSubscriptionResponse] at ok
    dsimp only at ok
    split at ok <;> cases ok
  | none =>
    rw [SubscriptionCapture.captureSubscriptionResponse_eq] at ok ⊢
    have counted := (counted_start expectation).captureEvents fromSlice (SseDecoder.decode chunks)
    split at ok
    case h_2 => cases ok
    case h_1 capture read =>
      rw [read] at counted
      unfold SubscriptionCapture.finishStream at ok ⊢
      split at ok
      case isTrue => cases ok
      case isFalse reported =>
        split at ok
        case isTrue => cases ok
        case isFalse all =>
          rw [if_neg reported, if_neg all, ← not_not.1 all]
          exact counted.frames.symm

/-- Events that are all frames are all counted. -/
theorem captureEvents_frames {events : List SseEvent} (framed : ∀ (index : Nat) event, events[index]? = some event →
    ∃ payload, verdict fromSlice expectation (capture.receivedFrames + index) event = .frame payload) :
    ∃ next, capture.captureEvents fromSlice expectation events = (next, .ok ()) ∧
      next.receivedFrames = capture.receivedFrames + events.length := by
  induction events generalizing capture with
  | nil => exact ⟨capture, rfl, rfl⟩
  | cons event rest ih =>
    obtain ⟨payload, here⟩ := framed 0 event rfl
    rw [Nat.add_zero] at here
    have count : (capture.countFrame payload).receivedFrames = capture.receivedFrames + 1 := by
      unfold SubscriptionCapture.countFrame
      dsimp only
      split <;> rfl
    rw [SubscriptionCapture.captureEvents, captureSubscriptionEvent_eq, here]
    dsimp only
    have later : ∀ (index : Nat) event, rest[index]? = some event → ∃ frame, verdict fromSlice expectation
        ((capture.countFrame payload).receivedFrames + index) event = .frame frame := by
      intro index event found
      have shifted := framed (index + 1) event (by simpa using found)
      rwa [count, Nat.add_assoc, Nat.add_comm 1]
    obtain ⟨next, read, frames⟩ := ih later
    refine ⟨next, read, ?_⟩
    rw [frames, count, List.length_cons]
    omega

end

/-! ## The frames of the recording -/

/-- The payload of a message that the server sent on a subscription. -/
def sourcePayload (codec : Codec) (subscriptionId : Value) (message : StoredMessage) : Option Value :=
  if message.direction ≠ "s2c" then none
  else (codec.fromStr message.payload).filter fun payload =>
    (subscriptionIdFromNotification payload).any fun id => id.beq subscriptionId

/-- What the recording has for a subscription. -/
def sourceFrames (codec : Codec) (subscriptionId : Value) (messages : List StoredMessage) : List Value :=
  messages.filterMap (sourcePayload codec subscriptionId)

/-- A frame of the recording passes its check, after this many frames before it. -/
def SourceChecked (subscriptionId : Value) (filter accepted : SubscriptionFilter) (frames : Nat) (payload : Value) :
    Prop :=
  if frames = 0 then subscriptionAcknowledgmentFilter payload subscriptionId filter = .ok accepted
  else validateSubscriptionNotification payload subscriptionId accepted frames = .ok ()

section
variable {codec : Codec} {subscriptionId : Value} {filter : SubscriptionFilter} {listenSeq : Nat}

/-- One message of the recording: it is passed over, or it is the next frame. -/
theorem sourceMessage_cases {frames next : SourceFrames} {message : StoredMessage}
    (started : frames.acceptedFilter = none ↔ frames.expectedFrames = 0)
    (done : sourceMessage codec subscriptionId filter listenSeq frames message = .ok next) :
    (sourcePayload codec subscriptionId message = none ∧ next = frames) ∨
      ∃ payload accepted, sourcePayload codec subscriptionId message = some payload ∧
        next = ⟨some accepted, frames.expectedFrames + 1⟩ ∧ (∀ old, frames.acceptedFilter = some old → old = accepted) ∧
        SourceChecked subscriptionId filter accepted frames.expectedFrames payload := by
  unfold sourceMessage at done
  split at done
  case isTrue other =>
    cases done
    exact .inl ⟨if_pos other, rfl⟩
  case isFalse fromServer =>
    split at done
    case h_1 => cases done
    case h_2 payload decoded =>
      split at done
      case isFalse foreign =>
        cases done
        refine .inl ⟨?_, rfl⟩
        rw [sourcePayload, if_neg fromServer, decoded, Option.filter_some, if_neg foreign]
      case isTrue own =>
        have listed : sourcePayload codec subscriptionId message = some payload := by
          rw [sourcePayload, if_neg fromServer, decoded, Option.filter_some, if_pos own]
        split at done
        case isTrue => cases done
        case isFalse =>
          unfold sourceFrame at done
          split at done
          case h_1 fresh =>
            obtain ⟨accepted, acknowledged, same⟩ := bind_eq_ok_iff.1 done
            cases same
            refine .inr ⟨payload, accepted, listed, rfl, fun old known => by simp [fresh] at known, ?_⟩
            rw [SourceChecked, if_pos (started.1 fresh)]
            exact mapError_eq_ok_iff.1 acknowledged
          case h_2 accepted known =>
            obtain ⟨_, checked, same⟩ := bind_eq_ok_iff.1 done
            cases same
            refine .inr ⟨payload, accepted, listed, rfl, fun old same => by simpa [known] using same.symm, ?_⟩
            have later : ¬ frames.expectedFrames = 0 := fun zero => by simp [known] at started; exact started zero
            rw [SourceChecked, if_neg later]
            exact mapError_eq_ok_iff.1 checked

/-- The frames of the recording have passed, each against the number of frames before it. -/
theorem sourceMessages_eq_ok {messages : List StoredMessage} {frames last : SourceFrames}
    (started : frames.acceptedFilter = none ↔ frames.expectedFrames = 0)
    (done : messages.foldlM (sourceMessage codec subscriptionId filter listenSeq) frames = .ok last) :
    (last.acceptedFilter = none ↔ last.expectedFrames = 0) ∧
      last.expectedFrames = frames.expectedFrames + (sourceFrames codec subscriptionId messages).length ∧
      ∀ accepted, last.acceptedFilter = some accepted → (∀ old, frames.acceptedFilter = some old → old = accepted) ∧
        ∀ (index : Nat) payload, (sourceFrames codec subscriptionId messages)[index]? = some payload →
          SourceChecked subscriptionId filter accepted (frames.expectedFrames + index) payload := by
  induction messages generalizing frames with
  | nil =>
    cases done
    exact ⟨started, rfl, fun accepted known => ⟨fun old same => Option.some.inj (same.symm.trans known), by simp [sourceFrames]⟩⟩
  | cons message rest ih =>
    rw [List.foldlM_cons] at done
    obtain ⟨next, first, others⟩ := bind_eq_ok_iff.1 done
    rcases sourceMessage_cases started first with ⟨skipped, rfl⟩ | ⟨payload, accepted, listed, rfl, kept, checked⟩
    · rw [sourceFrames, List.filterMap_cons_none skipped]
      exact ih started others
    · obtain ⟨ended, count, all⟩ := ih (by simp) others
      have grown : sourceFrames codec subscriptionId (message :: rest) =
          payload :: sourceFrames codec subscriptionId rest := List.filterMap_cons_some listed
      rw [grown]
      refine ⟨ended, ?_, fun final known => ?_⟩
      · rw [count, List.length_cons]
        dsimp only
        omega
      obtain ⟨same, later⟩ := all final known
      obtain rfl := same accepted rfl
      refine ⟨kept, fun index frame found => ?_⟩
      cases index with
      | zero =>
        obtain rfl : payload = frame := by simpa using found
        exact checked
      | succ index =>
        have here := later index frame (by simpa using found)
        dsimp only at here
        rwa [Nat.add_assoc, Nat.add_comm 1] at here

/-- Sent again, the frames of the recording pass as the frames of the target. -/
theorem frameVerdict_of_source {messages : List StoredMessage} {request : Value} {expectation : SubscriptionExpectation}
    (expected : subscriptionExpectation codec messages listenSeq request = .ok expectation) :
    let frames := sourceFrames codec expectation.subscriptionId messages
    frames.length = expectation.expectedFrames ∧ 0 < expectation.expectedFrames ∧
      ∀ (index : Nat) payload, frames[index]? = some payload → frameVerdict expectation index payload = .frame payload := by
  simp only [subscriptionExpectation, bind_eq_ok_iff, require_eq_ok_iff, pure_eq_ok_iff] at expected
  obtain ⟨subscriptionId, -, filter, -, last, checked, accepted, known, rfl⟩ := expected
  obtain ⟨ended, count, all⟩ := sourceMessages_eq_ok (by simp) checked
  obtain ⟨-, passed⟩ := all accepted known
  have length : last.expectedFrames = (sourceFrames codec subscriptionId messages).length := by simpa using count
  refine ⟨length.symm, Nat.pos_of_ne_zero fun zero => by simp [ended.2 zero] at known, fun index payload found => ?_⟩
  have source := passed index payload found
  rw [Nat.zero_add] at source
  have room : index < last.expectedFrames := length ▸ (List.getElem?_eq_some_iff.1 found).1
  have permitted : SubscriptionCapture.validateFrame
      ⟨subscriptionId, filter, accepted, last.expectedFrames⟩ index payload = .ok () ∧
      ∃ method, Notifies subscriptionId payload method := by
    simp only [SubscriptionCapture.validateFrame, bind_eq_ok_iff, ensure_eq_ok_iff, decide_eq_true_eq]
    unfold SourceChecked at source
    by_cases first : index = 0
    · rw [if_pos first] at source
      refine ⟨⟨(), room, ?_⟩, _, (acknowledgmentFilter_eq_ok source).1⟩
      rw [if_pos first, validateSubscriptionAcknowledgment, bind_eq_ok_iff]
      exact ⟨accepted, source, ensure_eq_ok_iff.2 (decide_eq_true rfl)⟩
    · rw [if_neg first] at source
      obtain ⟨method, notifies, -⟩ := notifies_of_validated source
      refine ⟨⟨(), room, ?_⟩, method, notifies⟩
      rwa [if_neg first]
  obtain ⟨valid, method, notifies⟩ := permitted
  rw [frameVerdict, not_terminal_of_notifies notifies, valid]
  rfl

/-- The frames of the recording and at most one terminal response, read from a whole stream. -/
theorem captureSubscriptionResponse_of_source {fromSlice : List UInt8 → Option Value} {messages : List StoredMessage}
    {request : Value} {expectation : SubscriptionExpectation} {chunks : List (List UInt8)} {ending : List Value}
    (expected : subscriptionExpectation codec messages listenSeq request = .ok expectation) (one : ending.length ≤ 1)
    (terminal : ∀ payload ∈ ending, isSubscriptionTerminalResponse payload expectation.subscriptionId = true)
    (sent : (SseDecoder.decode chunks).map (SubscriptionCapture.eventPayload fromSlice) =
      (sourceFrames codec expectation.subscriptionId messages ++ ending).map .ok) :
    (SubscriptionCapture.captureSubscriptionResponse fromSlice expectation chunks none).2 = .ok () := by
  obtain ⟨length, some_frame, passed⟩ := frameVerdict_of_source expected
  rw [List.map_append] at sent
  obtain ⟨framed, closing, decoded, framedPayloads, closingPayloads⟩ := List.map_eq_append_iff.1 sent
  have frame : ∀ (index : Nat) event, framed[index]? = some event → ∃ payload, verdict fromSlice expectation
      (SubscriptionCapture.start.receivedFrames + index) event = .frame payload := by
    intro index event found
    have here := congrArg (·[index]?) framedPayloads
    simp only [List.getElem?_map, found, Option.map_some] at here
    obtain ⟨payload, known, read⟩ := Option.map_eq_some_iff.1 here.symm
    refine ⟨payload, ?_⟩
    rw [verdict, ← read, SubscriptionCapture.start, Nat.zero_add]
    exact passed index payload known
  obtain ⟨capture, read, count⟩ := captureEvents_frames frame
  have all : capture.receivedFrames = expectation.expectedFrames := by
    have same : framed.length = (sourceFrames codec expectation.subscriptionId messages).length := by
      simpa using congrArg List.length framedPayloads
    rw [count, same, length]
    exact Nat.zero_add _
  have counted := (counted_start expectation).captureEvents fromSlice framed
  rw [read] at counted
  have finished (capture : SubscriptionCapture) (counted : Counted expectation capture)
      (all : capture.receivedFrames = expectation.expectedFrames) : (capture.finishStream expectation).2 = .ok () := by
    rw [SubscriptionCapture.finishStream, if_neg (counted.reported (all ▸ some_frame)), if_neg (not_not.2 all)]
  rw [SubscriptionCapture.captureSubscriptionResponse_eq, decoded, SubscriptionCapture.captureEvents_append, read]
  -- Behind the frames there is nothing, or the terminal response.
  match closing, ending with
  | [], _ => exact finished capture counted all
  | [event], [payload] =>
    have last : SubscriptionCapture.eventPayload fromSlice event = .ok payload := by simpa using closingPayloads
    have ends : verdict fromSlice expectation capture.receivedFrames event = .terminal payload := by
      rw [verdict, last]
      dsimp only
      rw [frameVerdict, if_pos (terminal payload (List.mem_singleton_self _))]
    have after := counted.captureEvents fromSlice [event]
    simp only [SubscriptionCapture.captureEvents, captureSubscriptionEvent_eq, ends] at after ⊢
    exact finished _ after all
  | _ :: _, [] => simp at closingPayloads
  | _ :: _ :: _, [_] => simp at closingPayloads
  | _, _ :: _ :: _ => simp at one

end

/-- What is recorded is evidence if and only if the target sends its terminal response in order. A response is
accepted only with all frames of the recording, and these are always accepted. -/
theorem subscription_evidence_iff (codec : Codec) (fromSlice : List UInt8 → Option Value)
    (messages : List StoredMessage) (listenSeq : Nat) (request : Value) (expectation : SubscriptionExpectation)
    (expected : subscriptionExpectation codec messages listenSeq request = .ok expectation) :
    (∀ events, Evidence expectation (SubscriptionCapture.start.captureEvents fromSlice expectation events).1.recorded ↔
      OrderlyFrom fromSlice expectation 0 events) ∧
    (∀ chunks readFailure,
      let response := SubscriptionCapture.captureSubscriptionResponse fromSlice expectation chunks readFailure
      response.2 = .ok () → framesOf expectation response.1.recorded = expectation.expectedFrames) ∧
    ∀ chunks ending, ending.length ≤ 1 →
      (∀ payload ∈ ending, isSubscriptionTerminalResponse payload expectation.subscriptionId = true) →
      (SseDecoder.decode chunks).map (SubscriptionCapture.eventPayload fromSlice) =
        (sourceFrames codec expectation.subscriptionId messages ++ ending).map .ok →
      (SubscriptionCapture.captureSubscriptionResponse fromSlice expectation chunks none).2 = .ok () := by
  refine ⟨fun events => ?_, fun chunks readFailure => framesOf_of_accepted, fun chunks ending one terminal sent =>
    captureSubscriptionResponse_of_source expected one terminal sent⟩
  rw [SubscriptionCapture.captureEvents_recorded]
  exact evidence_iff events

/-- A request for news about the tools. -/
def listenRequest : Value := .object [
  ("id", .number (.posInt 1)), ("jsonrpc", .string "2.0"), ("method", .string "subscriptions/listen"),
  ("params", .object [("notifications", .object [("toolsListChanged", .bool true)])])]

def subscriptionFrame (method : String) (members : List (String × Value)) : Value := .object [
  ("jsonrpc", .string "2.0"), ("method", .string method),
  ("params", .object (("_meta", .object [("io.modelcontextprotocol/subscriptionId", .number (.posInt 1))]) :: members))]

/-- The request, its acknowledgment and one notification. -/
def listeningSession : List StoredMessage :=
  [⟨0, 0, .clientToServer, listenRequest, 0⟩,
    ⟨1, 1, .serverToClient, subscriptionFrame "notifications/subscriptions/acknowledged"
      [("notifications", .object [("toolsListChanged", .bool true)])], 0⟩,
    ⟨2, 2, .serverToClient, subscriptionFrame "notifications/tools/list_changed" [], 0⟩].map
      (StoredMessage.ofMessage Compact.codec)

def listeningExpectation : SubscriptionExpectation where
  subscriptionId := .number (.posInt 1)
  filter := ⟨true, false, false, []⟩
  acceptedFilter := ⟨true, false, false, []⟩
  expectedFrames := 2

def listenResponse : Value := .object [("id", .number (.posInt 1)), ("result", .object [])]

theorem listening_expected :
    subscriptionExpectation Compact.codec listeningSession 0 listenRequest = .ok listeningExpectation := by
  decide +kernel

theorem listening_evidence_iff :
    subscriptionExpectation Compact.codec listeningSession 0 listenRequest = .ok listeningExpectation ∧
    (∀ events, Evidence listeningExpectation
      (SubscriptionCapture.start.captureEvents (fun _ => some listenResponse) listeningExpectation events).1.recorded ↔
        OrderlyFrom (fun _ => some listenResponse) listeningExpectation 0 events) :=
  ⟨listening_expected, (subscription_evidence_iff _ _ _ _ _ _ listening_expected).1⟩

/-- A terminal response is recorded before the acknowledgment. -/
theorem unacknowledged_response_recorded :
    ¬ ∀ (codec : Codec) (fromSlice : List UInt8 → Option Value) (messages : List StoredMessage) (listenSeq : Nat)
      (request : Value) (expectation : SubscriptionExpectation),
      subscriptionExpectation codec messages listenSeq request = .ok expectation →
      ∀ events, Evidence expectation
        (SubscriptionCapture.start.captureEvents fromSlice expectation events).1.recorded := by
  intro evidence
  have recorded : (SubscriptionCapture.start.captureEvents (fun _ => some listenResponse) listeningExpectation
      [.json []]).1.recorded = [listenResponse] := by decide +kernel
  have claimed := evidence Compact.codec (fun _ => some listenResponse) listeningSession 0 listenRequest
    listeningExpectation listening_expected [.json []]
  rw [recorded] at claimed
  rcases claimed with empty | ⟨acknowledgment, notifications, ending, split, acknowledges, -⟩
  · cases empty
  · obtain ⟨rfl, -⟩ := List.cons.inj split
    exact absurd acknowledges.1.anonymous (by decide +kernel)

end McpTracer.Proxy.HttpReplay
