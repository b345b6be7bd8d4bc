import Mathlib.Algebra.BigOperators.Group.List.Lemmas
import Mathlib.Algebra.Order.Ring.Nat
import McpTracer.Model.Pairing

/-! Correlation neither loses nor invents a message.

The pass keeps the requests in the order they came, the responses up to order, and the
notifications as they came. Changing an exchange never moves its request, and a response
is given only to an exchange that still waits for one.
-/

set_option autoImplicit false

namespace McpTracer.Model
open McpTracer.Foundation McpTracer.Json McpTracer.Protocol McpTracer.Storage

/-! ## What there is to keep -/

/-- The message is of this kind and its direction is one the format knows. -/
def HasKind (kind : String) (message : StoredMessage) : Prop :=
  Direction.fromDbStr message.direction ≠ none ∧ message.messageKind = kind

instance (kind : String) : DecidablePred (HasKind kind) := fun message =>
  inferInstanceAs (Decidable (Direction.fromDbStr message.direction ≠ none ∧ message.messageKind = kind))

/-- The sequence numbers of the messages of one kind, in order. -/
def seqsOf (kind : String) (messages : List StoredMessage) : List Nat :=
  (messages.filter (HasKind kind)).map StoredMessage.seq

/-- The event that a notification is recorded as. -/
def NotificationEvent.ofMessage (message : StoredMessage) : Option NotificationEvent :=
  if message.messageKind = "notification" then
    (Direction.fromDbStr message.direction).map fun direction =>
      ⟨message.seq, message.tsNs, direction, message.method.getD ""⟩
  else none

theorem not_hasKind {message : StoredMessage} {kind other : String} (is : message.messageKind = other)
    (differs : other ≠ kind) : ¬ HasKind kind message := fun has => differs (is.symm.trans has.2)

theorem seqsOf_concat (kind : String) (history : List StoredMessage) (message : StoredMessage) :
    seqsOf kind (history ++ [message]) =
      seqsOf kind history ++ if HasKind kind message then [message.seq] else [] := by
  by_cases has : HasKind kind message <;> simp [seqsOf, has]

/-- The statuses that only a response gives. -/
def Exchange.isAnswered (exchange : Exchange) : Bool :=
  [ExchangeStatus.ok, .error, .toolError].contains exchange.status

/-- The state of the pass accounts for every message of the history. -/
structure Conserves (history : List StoredMessage) (state : Correlation) : Prop where
  requests : state.exchanges.filterMap Exchange.requestSeq = seqsOf "request" history
  responses : (state.exchanges.filterMap Exchange.responseSeq).Perm (seqsOf "response" history)
  notifications : state.notifications = history.filterMap NotificationEvent.ofMessage
  carried : ∀ exchange ∈ state.exchanges, exchange.requestSeq ≠ none ∨ exchange.responseSeq ≠ none
  settled : ∀ exchange ∈ state.exchanges, exchange.isAnswered = true ↔
    exchange.requestSeq ≠ none ∧ exchange.responseSeq ≠ none

section Step
variable {codec : Codec} {history : List StoredMessage} {state : Correlation}
  {message : StoredMessage} {direction : Direction}

/-- A message that is neither request nor response nor notification adds nothing. -/
theorem conserves_skip (conserves : Conserves history state)
    (unread : Direction.fromDbStr message.direction = none ∨
      (message.messageKind ≠ "request" ∧ message.messageKind ≠ "response" ∧
        message.messageKind ≠ "notification")) :
    Conserves (history ++ [message]) state := by
  have none (kind : String) (role : kind = "request" ∨ kind = "response") : ¬ HasKind kind message := by
    rintro ⟨known, rfl⟩
    rcases unread with unknown | ⟨request, response, -⟩
    · exact known unknown
    · exact role.elim request response
  have silent : NotificationEvent.ofMessage message = Option.none := by
    unfold NotificationEvent.ofMessage
    rcases unread with unknown | ⟨-, -, notification⟩
    · simp [unknown]
    · simp [notification]
  exact { conserves with
    requests := by rw [seqsOf_concat, if_neg (none _ (.inl rfl)), List.append_nil, conserves.requests]
    responses := by
      rw [seqsOf_concat, if_neg (none _ (.inr rfl)), List.append_nil]
      exact conserves.responses
    notifications := by simp [conserves.notifications, silent] }

theorem conserves_request (conserves : Conserves history state)
    (known : Direction.fromDbStr message.direction = some direction)
    (kind : message.messageKind = "request") :
    Conserves (history ++ [message]) (state.request direction message) where
  requests := by
    have has : HasKind "request" message := ⟨by simp [known], kind⟩
    rw [seqsOf_concat, if_pos has, ← conserves.requests]
    simp [Correlation.request, Exchange.opened]
  responses := by
    have other : ¬ HasKind "response" message := not_hasKind kind (by decide)
    rw [seqsOf_concat, if_neg other, List.append_nil]
    simpa [Correlation.request, Exchange.opened] using conserves.responses
  notifications := by simp [Correlation.request, conserves.notifications, NotificationEvent.ofMessage, kind]
  carried exchange member := by
    rcases List.mem_append.mp member with before | new
    · exact conserves.carried exchange before
    · obtain rfl : exchange = Exchange.opened direction message := by simpa using new
      simp [Exchange.opened]
  settled exchange member := by
    rcases List.mem_append.mp member with before | new
    · exact conserves.settled exchange before
    · obtain rfl : exchange = Exchange.opened direction message := by simpa using new
      simp [Exchange.opened, Exchange.isAnswered]

theorem conserves_orphan (conserves : Conserves history state)
    (known : Direction.fromDbStr message.direction = some direction)
    (kind : message.messageKind = "response") :
    Conserves (history ++ [message])
      { state with exchanges := state.exchanges ++ [Exchange.orphan direction message] } where
  requests := by
    have other : ¬ HasKind "request" message := not_hasKind kind (by decide)
    rw [seqsOf_concat, if_neg other, List.append_nil, ← conserves.requests]
    simp [Exchange.orphan]
  responses := by
    have has : HasKind "response" message := ⟨by simp [known], kind⟩
    rw [seqsOf_concat, if_pos has, List.filterMap_append]
    exact conserves.responses.append_right _
  notifications := by simp [conserves.notifications, NotificationEvent.ofMessage, kind]
  carried exchange member := by
    rcases List.mem_append.mp member with before | new
    · exact conserves.carried exchange before
    · obtain rfl : exchange = Exchange.orphan direction message := by simpa using new
      simp [Exchange.orphan]
  settled exchange member := by
    rcases List.mem_append.mp member with before | new
    · exact conserves.settled exchange before
    · obtain rfl : exchange = Exchange.orphan direction message := by simpa using new
      simp [Exchange.orphan, Exchange.isAnswered]

/-- The response goes to an exchange that had none. -/
theorem conserves_answered (conserves : Conserves history state) {key : Direction × String} {index : Nat}
    {request : StoredMessage} {pending : Table (Direction × String) Nat}
    (known : Direction.fromDbStr message.direction = some direction)
    (kind : message.messageKind = "response") (waits : Waiting state.exchanges key index request) :
    Conserves (history ++ [message]) { state with
      exchanges := state.exchanges.modify index fun exchange => exchange.answered codec message
      pending := pending } := by
  obtain ⟨waiting, found, sides, -⟩ := waits
  have requested : waiting.requestSeq = some request.seq := (Prod.mk.inj sides).1
  have unanswered : waiting.responseSeq = none := (Prod.mk.inj sides).2
  have answered : (waiting.answered codec message).isAnswered = true := by
    simp only [Exchange.isAnswered, Exchange.answered]
    split_ifs <;> rfl
  refine ⟨?requests, ?responses, ?notifications, ?carried, ?settled⟩
  case requests =>
    have other : ¬ HasKind "request" message := not_hasKind kind (by decide)
    have kept (exchange : Exchange) :
        (exchange.answered codec message).requestSeq = exchange.requestSeq := rfl
    rw [seqsOf_concat, if_neg other, List.append_nil, ← conserves.requests, filterMap_modify_kept kept]
  case responses =>
    have has : HasKind "response" message := ⟨by simp [known], kind⟩
    rw [seqsOf_concat, if_pos has]
    exact (filterMap_modify_gained found unanswered rfl).trans <|
      (conserves.responses.cons _).trans (List.perm_append_singleton _ _).symm
  case notifications => simp [conserves.notifications, NotificationEvent.ofMessage, kind]
  case carried =>
    intro exchange member
    rcases mem_modify found member with before | rfl
    · exact conserves.carried exchange before
    · exact .inr (by simp [Exchange.answered])
  case settled =>
    intro exchange member
    rcases mem_modify found member with before | rfl
    · exact conserves.settled exchange before
    · have asked : (waiting.answered codec message).requestSeq ≠ none := by
        simp [Exchange.answered, requested]
      exact iff_of_true answered ⟨asked, by simp [Exchange.answered]⟩

/-- A notification may change the status of an exchange that waits, but not to an answered one. -/
theorem conserves_waiting (conserves : Conserves history state) {key : Direction × String} {index : Nat}
    {request : StoredMessage} {pending : Table (Direction × String) Nat} {change : Exchange → Exchange}
    (waits : Waiting state.exchanges key index request)
    (kept : ∀ exchange, (change exchange).sides = exchange.sides)
    (plain : ∀ exchange, exchange.isAnswered = false → (change exchange).isAnswered = false) :
    Conserves history
      { state with exchanges := state.exchanges.modify index change, pending := pending } := by
  obtain ⟨waiting, found, sides, -⟩ := waits
  have requestKept (exchange : Exchange) : (change exchange).requestSeq = exchange.requestSeq :=
    (Prod.mk.inj (kept exchange)).1
  have responseKept (exchange : Exchange) : (change exchange).responseSeq = exchange.responseSeq :=
    (Prod.mk.inj (kept exchange)).2
  have asked : waiting.requestSeq = some request.seq := (Prod.mk.inj sides).1
  have unanswered : waiting.responseSeq = none := (Prod.mk.inj sides).2
  have open_ : waiting.isAnswered = false := by
    have before := conserves.settled waiting (List.mem_of_getElem? found)
    simpa [unanswered] using before
  refine ⟨?requests, ?responses, conserves.notifications, ?carried, ?settled⟩
  case requests => rw [← conserves.requests, filterMap_modify_kept requestKept]
  case responses => rw [filterMap_modify_kept responseKept]; exact conserves.responses
  case carried =>
    intro exchange member
    rcases mem_modify found member with before | rfl
    · exact conserves.carried exchange before
    · exact .inl (by simp [requestKept, asked])
  case settled =>
    intro exchange member
    rcases mem_modify found member with before | rfl
    · exact conserves.settled exchange before
    · simp [plain waiting open_, responseKept, unanswered]

/-- Whatever is pending waits. -/
theorem waits_of_pending (tracks : Tracks codec history state) {key : Direction × String} {index : Nat}
    (pending : state.pending key = some index) :
    ∃ request, Waiting state.exchanges key index request := by
  cases opened : openRequests codec history key with
  | none => simp [tracks.closed key opened] at pending
  | some request =>
    obtain ⟨position, found, waits⟩ := tracks.waiting key request opened
    obtain rfl : index = position := Option.some.inj (pending.symm.trans found)
    exact ⟨request, waits⟩

theorem conserves_response (conserves : Conserves history state) (tracks : Tracks codec history state)
    (known : Direction.fromDbStr message.direction = some direction)
    (kind : message.messageKind = "response") :
    Conserves (history ++ [message]) (state.response codec direction message) := by
  unfold Correlation.response
  split
  · rename_i id index found
    obtain ⟨own, -, entry⟩ := Option.bind_eq_some_iff.mp found
    obtain ⟨position, pending, same⟩ := Option.map_eq_some_iff.mp entry
    obtain ⟨rfl, rfl⟩ := Prod.mk.inj same
    obtain ⟨request, waits⟩ := waits_of_pending tracks pending
    exact conserves_answered conserves known kind waits
  · exact conserves_orphan conserves known kind

theorem conserves_cancellation (conserves : Conserves history state) (tracks : Tracks codec history state)
    (message : StoredMessage) (direction : Direction) :
    Conserves history (state.cancellation codec direction message) := by
  unfold Correlation.cancellation
  split
  · rename_i id index found
    obtain ⟨own, -, entry⟩ := Option.bind_eq_some_iff.mp found
    obtain ⟨position, pending, same⟩ := Option.map_eq_some_iff.mp entry
    obtain ⟨rfl, rfl⟩ := Prod.mk.inj same
    obtain ⟨request, waits⟩ := waits_of_pending tracks pending
    exact conserves_waiting conserves waits (fun _ => rfl) fun _ _ => rfl
  · exact conserves

theorem conserves_acknowledgement (conserves : Conserves history state) {later : List StoredMessage}
    (tracks : Tracks codec later state) (message : StoredMessage) (direction : Direction) :
    Conserves history (state.acknowledgement codec direction message) := by
  unfold Correlation.acknowledgement
  split
  · split
    · rename_i index found
      obtain ⟨id, -, pending⟩ := Option.bind_eq_some_iff.mp found
      obtain ⟨request, waits⟩ := waits_of_pending tracks pending
      refine conserves_waiting conserves waits (fun exchange => (acknowledged_kept exchange).1) ?_
      intro exchange plain
      unfold Exchange.acknowledged
      split
      · rfl
      · exact plain
    · exact conserves
  · exact conserves

theorem conserves_notification (conserves : Conserves history state) (tracks : Tracks codec history state)
    (known : Direction.fromDbStr message.direction = some direction)
    (kind : message.messageKind = "notification") :
    Conserves (history ++ [message]) (state.notification codec direction message) := by
  have cancelled := conserves_cancellation conserves tracks message direction
  have kept := conserves_acknowledgement cancelled (tracks_cancellation tracks known kind) message direction
  have noRequest : ¬ HasKind "request" message := not_hasKind kind (by decide)
  have noResponse : ¬ HasKind "response" message := not_hasKind kind (by decide)
  refine ⟨?requests, ?responses, ?notifications, kept.carried, kept.settled⟩
  case requests =>
    rw [seqsOf_concat, if_neg noRequest, List.append_nil]
    exact kept.requests
  case responses =>
    rw [seqsOf_concat, if_neg noResponse, List.append_nil]
    exact kept.responses
  case notifications =>
    simp [Correlation.notification, kept.notifications, NotificationEvent.ofMessage, kind, known]

theorem conserves_step (conserves : Conserves history state) (tracks : Tracks codec history state) :
    Conserves (history ++ [message]) (state.step codec message) := by
  unfold Correlation.step
  cases known : Direction.fromDbStr message.direction with
  | none => exact conserves_skip conserves (.inl known)
  | some direction =>
    simp only
    split
    · exact conserves_request conserves known (by assumption)
    · exact conserves_response conserves tracks known (by assumption)
    · exact conserves_notification conserves tracks known (by assumption)
    · rename_i noRequest noResponse noNotification
      exact conserves_skip conserves (.inr ⟨noRequest, noResponse, noNotification⟩)

end Step

theorem conserves_foldl (codec : Codec) (messages : List StoredMessage) :
    Conserves messages (messages.foldl (Correlation.step codec) .start) := by
  induction messages using List.reverseRecOn with
  | nil =>
    refine ⟨rfl, .nil, rfl, ?_, ?_⟩ <;> simp [Correlation.start]
  | append_singleton history message ih =>
    rw [List.foldl_append]
    exact conserves_step ih (tracks_foldl codec history)

/-! ## The sorted view -/

section View
variable (codec : Codec) (messages : List StoredMessage)

theorem correlate_perm : (correlate codec messages).exchanges.Perm
    (messages.foldl (Correlation.step codec) .start).exchanges :=
  List.perm_insertionSort _ _

theorem correlate_requests : ((correlate codec messages).exchanges.filterMap Exchange.requestSeq).Perm
    (seqsOf "request" messages) := by
  rw [← (conserves_foldl codec messages).requests]
  exact (correlate_perm codec messages).filterMap _

theorem correlate_responses : ((correlate codec messages).exchanges.filterMap Exchange.responseSeq).Perm
    (seqsOf "response" messages) :=
  ((correlate_perm codec messages).filterMap _).trans (conserves_foldl codec messages).responses

theorem correlate_notifications : (correlate codec messages).notifications =
    messages.filterMap NotificationEvent.ofMessage :=
  (conserves_foldl codec messages).notifications

theorem correlate_carried {exchange : Exchange}
    (member : exchange ∈ (correlate codec messages).exchanges) :
    exchange.requestSeq ≠ none ∨ exchange.responseSeq ≠ none :=
  (conserves_foldl codec messages).carried exchange ((mem_correlate codec messages exchange).1 member)

theorem correlate_settled {exchange : Exchange}
    (member : exchange ∈ (correlate codec messages).exchanges) :
    exchange.isAnswered = true ↔ exchange.requestSeq ≠ none ∧ exchange.responseSeq ≠ none :=
  (conserves_foldl codec messages).settled exchange ((mem_correlate codec messages exchange).1 member)

theorem correlate_sorted : (correlate codec messages).exchanges.Pairwise fun a b => a.sortKey ≤ b.sortKey := by
  have total : Std.Total fun a b : Exchange => a.sortKey ≤ b.sortKey := ⟨fun a b => Nat.le_total _ _⟩
  have trans : IsTrans Exchange fun a b => a.sortKey ≤ b.sortKey := ⟨fun a b c => Nat.le_trans⟩
  exact List.pairwise_insertionSort _ _

end View

/-! ## Aggregates -/

/-- Every status is counted under exactly one heading. -/
theorem computeStats_total (exchanges : List Exchange) (notifications : List NotificationEvent) :
    let stats := computeStats exchanges notifications
    stats.ok + stats.errors + stats.cancelled + stats.unanswered + stats.orphanResponses =
      stats.totalExchanges := by
  simp only [computeStats]
  induction exchanges with
  | nil => rfl
  | cons exchange rest ih =>
    simp only [List.countP_cons, List.length_cons]
    cases exchange.status <;> simp at ih ⊢ <;> omega

theorem toolCallCounts_total (exchanges : List Exchange) :
    ((toolCallCounts exchanges).map Prod.snd).sum =
      exchanges.countP fun exchange => exchange.toolName.isSome := by
  have counted := List.sum_map_count_dedup_eq_length (exchanges.filterMap Exchange.toolName)
  rw [List.length_filterMap_eq_countP] at counted
  rw [← counted, toolCallCounts, ((List.perm_insertionSort _ _).map Prod.snd).sum_eq, List.map_map]
  rfl

/-! ## Conservation -/

theorem mem_seqsOf_iff {kind : String} {messages : List StoredMessage} {seq : Nat} :
    seq ∈ seqsOf kind messages ↔ ∃ message ∈ messages, HasKind kind message ∧ message.seq = seq := by
  simp [seqsOf, and_assoc]

theorem seqsOf_nodup {messages : List StoredMessage} (distinct : (messages.map StoredMessage.seq).Nodup)
    (kind : String) : (seqsOf kind messages).Nodup :=
  distinct.sublist (List.filter_sublist.map _)

/-- A side that lists the messages of a kind up to order carries each of them once. -/
theorem countP_eq_one {side : Exchange → Option Nat} {exchanges : List Exchange} {kind : String}
    {messages : List StoredMessage} (lists : (exchanges.filterMap side).Perm (seqsOf kind messages))
    (distinct : (messages.map StoredMessage.seq).Nodup) {message : StoredMessage}
    (member : message ∈ messages) (has : HasKind kind message) :
    exchanges.countP (fun exchange => side exchange = some message.seq) = 1 := by
  have found : message.seq ∈ exchanges.filterMap side :=
    lists.mem_iff.2 (mem_seqsOf_iff.2 ⟨message, member, has, rfl⟩)
  have once := List.count_eq_one_of_mem (lists.nodup_iff.2 (seqsOf_nodup distinct kind)) found
  rw [List.count_filterMap] at once
  rw [← once]
  exact List.countP_congr fun exchange _ => by simp

/-- A message makes an event exactly when it is a notification, and the event keeps its number. -/
theorem ofMessage_seq (message : StoredMessage) :
    (NotificationEvent.ofMessage message).map NotificationEvent.seq =
      if HasKind "notification" message then some message.seq else none := by
  by_cases kind : message.messageKind = "notification"
  · cases known : Direction.fromDbStr message.direction with
    | none => simp [NotificationEvent.ofMessage, HasKind, known]
    | some direction => simp [NotificationEvent.ofMessage, HasKind, known, kind]
  · simp [NotificationEvent.ofMessage, HasKind, kind]

theorem hasKind_of_ofMessage {message : StoredMessage} {event : NotificationEvent}
    (made : NotificationEvent.ofMessage message = some event) : HasKind "notification" message := by
  by_contra other
  have seq := ofMessage_seq message
  simp [made, other] at seq

theorem notifications_nodup {messages : List StoredMessage}
    (distinct : (messages.map StoredMessage.seq).Nodup) :
    (messages.filterMap NotificationEvent.ofMessage).Nodup := by
  have seqs : (messages.filterMap NotificationEvent.ofMessage).map NotificationEvent.seq =
      seqsOf "notification" messages := by
    simp only [List.map_filterMap, ofMessage_seq, seqsOf, ← List.filterMap_eq_map, List.filterMap_filter,
      Function.comp_apply, decide_eq_true_eq]
  refine List.Nodup.of_map NotificationEvent.seq ?_
  rw [seqs]
  exact seqsOf_nodup distinct _

theorem sortKey_some {exchange : Exchange}
    (carried : exchange.requestSeq ≠ none ∨ exchange.responseSeq ≠ none) :
    ∃ seq, exchange.requestSeq.or exchange.responseSeq = some seq := by
  cases request : exchange.requestSeq with
  | some seq => exact ⟨seq, rfl⟩
  | none =>
    obtain ⟨seq, answered⟩ := Option.ne_none_iff_exists'.1 (carried.resolve_left (absurd request))
    exact ⟨seq, by simpa using answered⟩

/-- Every message of the three kinds is in the model exactly once, and nothing else is; the
exchanges are in order, and the aggregates add up. -/
theorem correlate_conserves (codec : Codec) (messages : List StoredMessage)
    (distinct : (messages.map StoredMessage.seq).Nodup) :
    let model := correlate codec messages
    (∀ message ∈ messages, HasKind "request" message →
      model.exchanges.countP (fun exchange => exchange.requestSeq = some message.seq) = 1) ∧
    (∀ message ∈ messages, HasKind "response" message →
      model.exchanges.countP (fun exchange => exchange.responseSeq = some message.seq) = 1) ∧
    (∀ message ∈ messages, HasKind "notification" message →
      ∃ event, NotificationEvent.ofMessage message = some event ∧ model.notifications.count event = 1) ∧
    (∀ exchange ∈ model.exchanges,
      (exchange.requestSeq ≠ none ∨ exchange.responseSeq ≠ none) ∧
      (∀ seq, exchange.requestSeq = some seq →
        ∃ message ∈ messages, HasKind "request" message ∧ message.seq = seq) ∧
      ∀ seq, exchange.responseSeq = some seq →
        ∃ message ∈ messages, HasKind "response" message ∧ message.seq = seq) ∧
    (∀ event ∈ model.notifications,
      ∃ message ∈ messages, HasKind "notification" message ∧
        NotificationEvent.ofMessage message = some event) ∧
    (model.exchanges.Pairwise fun a b =>
      ∃ x y, a.requestSeq.or a.responseSeq = some x ∧ b.requestSeq.or b.responseSeq = some y ∧ x ≤ y) ∧
    model.stats.ok + model.stats.errors + model.stats.cancelled + model.stats.unanswered +
      model.stats.orphanResponses = model.stats.totalExchanges ∧
    model.stats.totalExchanges = model.exchanges.length ∧
    (model.stats.toolCallCounts.map Prod.snd).sum =
      model.exchanges.countP fun exchange => exchange.toolName.isSome := by
  have requests := correlate_requests codec messages
  have responses := correlate_responses codec messages
  have notifications := correlate_notifications codec messages
  refine ⟨fun message member has => countP_eq_one requests distinct member has,
    fun message member has => countP_eq_one responses distinct member has,
    ?notified, ?nothingElse, ?noOtherEvent, ?sorted, ?total, rfl, ?tools⟩
  case notified =>
    intro message member has
    have seq := ofMessage_seq message
    rw [if_pos has, Option.map_eq_some_iff] at seq
    obtain ⟨event, made, -⟩ := seq
    have found : event ∈ messages.filterMap NotificationEvent.ofMessage :=
      List.mem_filterMap.2 ⟨message, member, made⟩
    rw [notifications]
    exact ⟨event, made, List.count_eq_one_of_mem (notifications_nodup distinct) found⟩
  case nothingElse =>
    intro exchange member
    refine ⟨correlate_carried codec messages member, fun seq asked => ?_, fun seq answered => ?_⟩
    · exact mem_seqsOf_iff.1 (requests.mem_iff.1 (List.mem_filterMap.2 ⟨exchange, member, asked⟩))
    · exact mem_seqsOf_iff.1 (responses.mem_iff.1 (List.mem_filterMap.2 ⟨exchange, member, answered⟩))
  case noOtherEvent =>
    intro event member
    rw [notifications] at member
    obtain ⟨message, found, made⟩ := List.mem_filterMap.1 member
    exact ⟨message, found, hasKind_of_ofMessage made, made⟩
  case sorted =>
    refine (correlate_sorted codec messages).imp_of_mem fun {a b} first second ordered => ?_
    obtain ⟨x, keyed⟩ := sortKey_some (correlate_carried codec messages first)
    obtain ⟨y, keyed'⟩ := sortKey_some (correlate_carried codec messages second)
    refine ⟨x, y, keyed, keyed', ?_⟩
    simpa [Exchange.sortKey, keyed, keyed'] using ordered
  case total => exact computeStats_total _ _
  case tools => exact toolCallCounts_total _

/-- A call, its response, a stray response and a notification. -/
theorem correlate_conserves_strays :
    let messages : List StoredMessage :=
      [⟨4, 0, "c2s", "request", some "1", some "tools/call", some "echo", "", 0, false, none⟩,
        ⟨5, 0, "s2c", "response", some "1", none, none, "", 0, false, none⟩,
        ⟨6, 0, "s2c", "response", some "7", none, none, "", 0, false, none⟩,
        ⟨7, 0, "c2s", "notification", none, some "notifications/initialized", none, "", 0, false, none⟩]
    (correlate Compact.codec messages).exchanges.countP (fun exchange => exchange.responseSeq = some 6) = 1 := by
  intro messages
  have distinct : (messages.map StoredMessage.seq).Nodup := by decide
  have conserves := correlate_conserves Compact.codec messages distinct
  exact conserves.2.1 ⟨6, 0, "s2c", "response", some "7", none, none, "", 0, false, none⟩ (by decide) (by decide)

end McpTracer.Model
