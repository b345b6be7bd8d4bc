import McpTracer.Foundation.Assoc
import McpTracer.Model.Conservation
import McpTracer.Model.Serve

/-! A recorded session replayed against its own mock server.

When the requests come in recorded order, the exchanges used so far are the first ones
of the inventory, and every strategy pairs a request with its own exchange when that is
the first unused one. So the answers are right exactly when the inventory is complete.
-/

set_option autoImplicit false

namespace McpTracer.Model
open McpTracer.Foundation McpTracer.Json McpTracer.Protocol McpTracer.Storage

/-! ## What a session recorded -/

/-- The calls of the client that received a response, in recorded order. -/
def answeredRequests (codec : Codec) (messages : List StoredMessage) : List Exchange :=
  (correlate codec messages).exchanges.filter fun exchange =>
    exchange.origin = .clientToServer && exchange.requestSeq.isSome && exchange.responseSeq.isSome

/-- The request that the exchange was recorded for. -/
def Exchange.Sends (codec : Codec) (messages : List StoredMessage) (exchange : Exchange)
    (request : Value) : Prop :=
  ∃ message ∈ messages, exchange.requestSeq = some message.seq ∧
    codec.fromStr message.payload = some request

/-- The answer is the recorded response of the exchange. -/
def Exchange.Returns (codec : Codec) (messages : List StoredMessage) (exchange : Exchange)
    (answer : Option MockResponse) : Prop :=
  ∃ returned, answer = some returned ∧ exchange.requestSeq = some returned.sourceRequestSeq ∧
    exchange.responseSeq = some returned.sourceResponseSeq ∧
    ∃ message ∈ messages, message.seq = returned.sourceResponseSeq ∧
      codec.fromStr message.payload = some returned.response

/-! ## The inventory -/

/-- The exchanges that have an entry. -/
def Exchange.isListed (exchange : Exchange) : Bool :=
  MockSession.isServed exchange && exchange.requestSeq.isSome && exchange.responseSeq.isSome

/-- What an entry of the inventory says about its exchange and its request. -/
structure RecordedExchange.Describes (codec : Codec) (messages : List StoredMessage)
    (exchange : Exchange) (recorded : RecordedExchange) : Prop where
  unused : recorded.used = false
  requestSeq : exchange.requestSeq = some recorded.sourceRequestSeq
  responseSeq : exchange.responseSeq = some recorded.sourceResponseSeq
  response : ∃ message ∈ messages, message.seq = recorded.sourceResponseSeq ∧
    codec.fromStr message.payload = some recorded.response
  request : ∃ request, (∃ message ∈ messages, message.seq = recorded.sourceRequestSeq ∧
      codec.fromStr message.payload = some request) ∧
    methodOf request = some recorded.method ∧ recorded.toolName = toolNameOf request ∧
    recorded.paramsKey = paramsKeyOf codec request ∧ recorded.params = paramsOf request

section Inventory
variable {codec : Codec} {messages : List StoredMessage}

theorem bySeq_eq_some_iff (distinct : (messages.map StoredMessage.seq).Nodup) {seq : Nat}
    {message : StoredMessage} :
    bySeq messages seq = some message ↔ message ∈ messages ∧ message.seq = seq := by
  have keys : ((messages.map fun message => (message.seq, message)).map Prod.fst).Nodup := by
    simpa [Function.comp_def] using distinct
  rw [bySeq, Table.ofList_eq_some_iff keys]
  simp only [List.mem_map, Prod.mk.injEq]
  constructor
  · rintro ⟨other, member, same, rfl⟩
    exact ⟨member, same⟩
  · rintro ⟨member, same⟩
    exact ⟨message, member, same, rfl⟩

theorem recordExchange_describes (distinct : (messages.map StoredMessage.seq).Nodup) {exchange : Exchange}
    {requestSeq responseSeq : Nat} {recorded : RecordedExchange}
    (asked : exchange.requestSeq = some requestSeq) (answered : exchange.responseSeq = some responseSeq)
    (made : MockSession.recordExchange codec (bySeq messages) requestSeq responseSeq = .ok recorded) :
    recorded.Describes codec messages exchange := by
  simp only [MockSession.recordExchange, bind_eq_ok_iff, require_eq_ok_iff, pure_eq_ok_iff,
    bySeq_eq_some_iff distinct] at made
  obtain ⟨asking, ⟨askingIn, rfl⟩, answering, ⟨answeringIn, rfl⟩, request, parsed, response, parsed', method,
    named, rfl⟩ := made
  exact {
    unused := rfl
    requestSeq := asked
    responseSeq := answered
    response := ⟨answering, answeringIn, rfl, parsed'⟩
    request := ⟨request, ⟨asking, askingIn, rfl, parsed⟩, named, rfl, rfl, rfl⟩ }

/-- The entries are those of the served exchanges, in order. -/
theorem recordExchanges_describes (distinct : (messages.map StoredMessage.seq).Nodup)
    {exchanges : List Exchange} {inventory : List RecordedExchange}
    (made : MockSession.recordExchanges codec (bySeq messages) exchanges = .ok inventory) :
    List.Forall₂ (fun exchange recorded => recorded.Describes codec messages exchange)
      (exchanges.filter Exchange.isListed) inventory := by
  induction exchanges generalizing inventory with
  | nil =>
    obtain rfl : [] = inventory := Except.ok.inj made
    exact .nil
  | cons exchange rest ih =>
    rw [MockSession.recordExchanges] at made
    split at made
    · rename_i requestSeq responseSeq served asked answered
      simp only [bind_eq_ok_iff, pure_eq_ok_iff] at made
      obtain ⟨recorded, described, others, recordedRest, rfl⟩ := made
      have listed : exchange.isListed = true := by simp [Exchange.isListed, served, asked, answered]
      rw [List.filter_cons_of_pos listed]
      exact .cons (recordExchange_describes distinct asked answered described) (ih recordedRest)
    · rename_i skipped
      have unlisted : ¬ exchange.isListed = true := by
        simp only [Exchange.isListed, Bool.and_eq_true, Option.isSome_iff_exists]
        rintro ⟨⟨served, requestSeq, asked⟩, responseSeq, answered⟩
        exact skipped requestSeq responseSeq served asked answered
      rw [List.filter_cons_of_neg unlisted]
      exact ih made

theorem fromMessagesWithStrategy_describes (distinct : (messages.map StoredMessage.seq).Nodup)
    {strategy : MatchStrategy} {mock : MockSession}
    (built : MockSession.fromMessagesWithStrategy codec messages strategy = .ok mock) :
    mock.strategy = strategy ∧
      List.Forall₂ (fun exchange recorded => recorded.Describes codec messages exchange)
        ((correlate codec messages).exchanges.filter Exchange.isListed) mock.exchanges := by
  simp only [MockSession.fromMessagesWithStrategy, bind_eq_ok_iff, pure_eq_ok_iff] at built
  obtain ⟨inventory, made, rfl⟩ := built
  exact ⟨rfl, recordExchanges_describes distinct made⟩

/-- Both messages of an exchange are in the table that is built from the session. -/
theorem bySeq_of_side (distinct : (messages.map StoredMessage.seq).Nodup) {side : Exchange → Option Nat}
    {kind : String} {exchanges : List Exchange}
    (lists : (exchanges.filterMap side).Perm (seqsOf kind messages)) {exchange : Exchange}
    (member : exchange ∈ exchanges) {seq : Nat} (carried : side exchange = some seq) :
    bySeq messages seq ≠ none := by
  have known : seq ∈ seqsOf kind messages :=
    lists.mem_iff.1 (List.mem_filterMap.2 ⟨exchange, member, carried⟩)
  obtain ⟨message, inside, -, same⟩ := mem_seqsOf_iff.1 known
  simp [(bySeq_eq_some_iff distinct).2 ⟨inside, same⟩]

theorem recordExchange_no_panic {requestSeq responseSeq : Nat} (asking : bySeq messages requestSeq ≠ none)
    (answering : bySeq messages responseSeq ≠ none) (text : String) :
    MockSession.recordExchange codec (bySeq messages) requestSeq responseSeq ≠ .error (.panic text) := by
  simp [MockSession.recordExchange, MockSession.invalidPayload, asking, answering]

/-- The panics of the builder are unreachable. -/
theorem fromMessagesWithStrategy_no_panic (distinct : (messages.map StoredMessage.seq).Nodup)
    (strategy : MatchStrategy) (text : String) :
    MockSession.fromMessagesWithStrategy codec messages strategy ≠ .error (.panic text) := by
  have listed (exchanges : List Exchange) (inside : exchanges ⊆ (correlate codec messages).exchanges) :
      MockSession.recordExchanges codec (bySeq messages) exchanges ≠ .error (.panic text) := by
    induction exchanges with
    | nil => simp [MockSession.recordExchanges]
    | cons exchange rest ih =>
      have others := ih (List.subset_of_cons_subset inside)
      have member := inside List.mem_cons_self
      rw [MockSession.recordExchanges]
      split
      · rename_i requestSeq responseSeq _ asked answered
        have asking := bySeq_of_side distinct (correlate_requests codec messages) member asked
        have answering := bySeq_of_side distinct (correlate_responses codec messages) member answered
        simp [recordExchange_no_panic asking answering, others]
      · exact others
  simp [MockSession.fromMessagesWithStrategy, listed _ (List.Subset.refl _)]

end Inventory

/-! ## Matching in recorded order -/

theorem findIdx?_first {A : Type} {p : A → Bool} {skipped : List A} {first : A} (rest : List A)
    (skips : ∀ x ∈ skipped, p x = false) (takes : p first = true) :
    (skipped ++ first :: rest).findIdx? p = some skipped.length := by
  have none : skipped.findIdx? p = none := List.findIdx?_eq_none_iff.2 skips
  simp [List.findIdx?_append, List.findIdx?_cons, none, takes]

theorem paramsSubset_self {params : Value} (formed : params.wellFormed = true) :
    paramsSubset params params = true := by
  cases params with
  | object fields =>
    rw [paramsSubset, List.all_eq_true]
    intro field member
    have found : fields.lookup field.1 = some field.2 :=
      (lookup_eq_some_iff (Value.wellFormed_object formed).1 _ _).2 member
    simp [found]
  | _ => simp [paramsSubset]

namespace RecordedExchange

def answer (recorded : RecordedExchange) : MockResponse :=
  ⟨recorded.response, recorded.sourceRequestSeq, recorded.sourceResponseSeq⟩

/-- The request is the one the entry was made from. -/
structure MadeFrom (codec : Codec) (recorded : RecordedExchange) (request : Value) : Prop where
  method : methodOf request = some recorded.method
  toolName : recorded.toolName = toolNameOf request
  paramsKey : recorded.paramsKey = paramsKeyOf codec request
  params : recorded.params = paramsOf request
  formed : (paramsOf request).wellFormed = true

end RecordedExchange

namespace MockSession

variable {codec : Codec}

/-- Every strategy takes the first unused entry for the request it was made from. -/
theorem position_first {session : MockSession} {spent rest : List RecordedExchange}
    {recorded : RecordedExchange} {request : Value}
    (inventory : session.exchanges = spent ++ recorded :: rest)
    (used : ∀ entry ∈ spent, entry.used = true) (unused : recorded.used = false)
    (made : recorded.MadeFrom codec request) :
    session.position codec recorded.method request = some spent.length := by
  have method : sameMethod recorded.method recorded = true := by simp [sameMethod, unused]
  have tool : sameTool recorded.method request recorded = true := by simp [sameTool, method, made.toolName]
  have call : sameCall codec recorded.method request recorded = true := by
    simp [sameCall, tool, made.paramsKey]
  have contained : paramsSubset recorded.params (paramsOf request) = true := by
    rw [made.params]
    exact paramsSubset_self made.formed
  -- A spent entry is never taken again, whatever the strategy asks of it.
  have skips (p : RecordedExchange → Bool) (fresh : ∀ entry, p entry = true → entry.used = false) :
      ∀ entry ∈ spent, p entry = false := by
    intro entry member
    cases taken : p entry with
    | false => rfl
    | true => exact absurd (fresh entry taken) (by simp [used entry member])
  have freshMethod (entry : RecordedExchange) (taken : sameMethod recorded.method entry = true) :
      entry.used = false := by
    simp only [sameMethod, Bool.and_eq_true, Bool.not_eq_true'] at taken
    exact taken.1
  have freshTool (entry : RecordedExchange) (taken : sameTool recorded.method request entry = true) :
      entry.used = false := by
    simp only [sameTool, Bool.and_eq_true] at taken
    exact freshMethod entry taken.1
  have freshCall (entry : RecordedExchange) (taken : sameCall codec recorded.method request entry = true) :
      entry.used = false := by
    simp only [sameCall, Bool.and_eq_true] at taken
    exact freshTool entry taken.1
  have exact : session.exchanges.findIdx? (sameCall codec recorded.method request) = some spent.length := by
    rw [inventory]
    exact findIdx?_first rest (skips _ freshCall) call
  unfold position
  cases session.strategy with
  | exact => exact exact
  | method =>
    rw [inventory]
    exact findIdx?_first rest (skips _ freshMethod) method
  | methodAndParams => simp only [exact, Option.some_or]
  | subset =>
    rw [inventory]
    refine findIdx?_first rest (skips _ fun entry taken => ?_) (by simp [tool, contained])
    simp only [Bool.and_eq_true] at taken
    exact freshTool entry taken.1
  | sequential =>
    rw [inventory]
    exact findIdx?_first rest (skips _ fun entry taken => by simpa using taken) (by simp [unused])

theorem matchRequest_first {session : MockSession} {spent rest : List RecordedExchange}
    {recorded : RecordedExchange} {request : Value}
    (inventory : session.exchanges = spent ++ recorded :: rest)
    (used : ∀ entry ∈ spent, entry.used = true) (unused : recorded.used = false)
    (made : recorded.MadeFrom codec request) :
    matchRequest codec session request =
      ({ session with exchanges := spent ++ { recorded with used := true } :: rest },
        some recorded.answer) := by
  have taken := position_first inventory used unused made
  have inside : spent.length < (spent ++ recorded :: rest).length := by simp
  simp only [matchRequest, made.method, Option.bind_some, taken, take, inventory]
  rw [List.modify_eq_take_cons_drop inside]
  simp [RecordedExchange.answer]

theorem replay_nil (session : MockSession) : session.replay codec [] = [] := rfl

theorem replay_cons (session : MockSession) (request : Value) (rest : List Value) :
    session.replay codec (request :: rest) =
      (matchRequest codec session request).2 :: (matchRequest codec session request).1.replay codec rest := rfl

/-- The mock server after it has been asked one request after another. -/
def after (codec : Codec) (session : MockSession) (requests : List Value) : MockSession :=
  requests.foldl (fun session request => (matchRequest codec session request).1) session

/-- What a request gets depends on the requests before it. -/
theorem replay_getElem? (session : MockSession) (requests : List Value) (k : Nat) :
    (session.replay codec requests)[k]? =
      requests[k]?.map fun request => (matchRequest codec (session.after codec (requests.take k)) request).2 := by
  induction requests generalizing session k with
  | nil => rfl
  | cons request rest ih =>
    rw [replay_cons]
    cases k with
    | zero => rfl
    | succ k => exact ih _ k

theorem replay_length (session : MockSession) (requests : List Value) :
    (session.replay codec requests).length = requests.length := by
  induction requests generalizing session with
  | nil => rfl
  | cons request rest ih => rw [replay_cons, List.length_cons, ih, List.length_cons]

/-- Requests in recorded order are answered with the recorded responses, one after another. -/
theorem replay_recorded {entries : List RecordedExchange} {requests : List Value}
    (made : List.Forall₂ (RecordedExchange.MadeFrom codec) entries requests)
    (unused : ∀ entry ∈ entries, entry.used = false) {session : MockSession}
    {spent : List RecordedExchange} (inventory : session.exchanges = spent ++ entries)
    (used : ∀ entry ∈ spent, entry.used = true) :
    session.replay codec requests = entries.map fun entry => some entry.answer := by
  induction made generalizing session spent with
  | nil => rfl
  | @cons recorded request rest requests first _ ih =>
    obtain ⟨fresh, others⟩ := List.forall_mem_cons.1 unused
    rw [replay_cons, matchRequest_first inventory used fresh first, List.map_cons]
    congr 1
    have spentNow : ∀ entry ∈ spent ++ [{ recorded with used := true }], entry.used = true := by
      intro entry member
      rcases List.mem_append.1 member with before | last
      · exact used entry before
      · obtain rfl : entry = { recorded with used := true } := by simpa using last
        rfl
    exact ih others (by simp) spentNow

/-- Using an entry up changes nothing else of the inventory. -/
theorem matchRequest_kept {A : Type} {image : RecordedExchange → A}
    (kept : ∀ entry, image { entry with used := true } = image entry) (codec : Codec) (session : MockSession)
    (request : Value) :
    (matchRequest codec session request).1.exchanges.map image = session.exchanges.map image := by
  unfold matchRequest
  split
  · exact map_modify_kept kept _ _
  · rfl

theorem matchRequest_selects {session : MockSession} {request : Value} {returned : MockResponse}
    (answered : (matchRequest codec session request).2 = some returned) :
    ∃ entry ∈ session.exchanges, returned = entry.answer := by
  unfold matchRequest at answered
  split at answered
  · obtain ⟨entry, found, rfl⟩ := Option.map_eq_some_iff.1 answered
    exact ⟨entry, List.mem_of_getElem? found, rfl⟩
  · cases answered

theorem matchRequest_sources (codec : Codec) (session : MockSession) (request : Value) :
    (matchRequest codec session request).1.exchanges.map RecordedExchange.sourceRequestSeq =
      session.exchanges.map RecordedExchange.sourceRequestSeq :=
  matchRequest_kept (fun _ => rfl) codec session request

theorem matchRequest_source {session : MockSession} {request : Value} {returned : MockResponse}
    (answered : (matchRequest codec session request).2 = some returned) :
    returned.sourceRequestSeq ∈ session.exchanges.map RecordedExchange.sourceRequestSeq := by
  obtain ⟨entry, member, rfl⟩ := matchRequest_selects answered
  exact List.mem_map_of_mem member

/-- An answer comes from an entry of the inventory. -/
theorem replay_source {session : MockSession} {requests : List Value} {returned : MockResponse}
    (answered : some returned ∈ session.replay codec requests) :
    returned.sourceRequestSeq ∈ session.exchanges.map RecordedExchange.sourceRequestSeq := by
  induction requests generalizing session with
  | nil => simp [replay_nil] at answered
  | cons request rest ih =>
    rw [replay_cons, List.mem_cons] at answered
    rw [← matchRequest_sources codec session request]
    rcases answered with now | later
    · rw [matchRequest_sources]
      exact matchRequest_source now.symm
    · exact ih later

end MockSession

/-! ## Replaying a session against its own recording -/

section Session
variable {codec : Codec} {messages : List StoredMessage}

/-- Distinct requests have distinct exchanges. -/
theorem exchange_of_requestSeq (distinct : (messages.map StoredMessage.seq).Nodup) {a b : Exchange}
    {seq : Nat} (first : a ∈ (correlate codec messages).exchanges)
    (second : b ∈ (correlate codec messages).exchanges) (left : a.requestSeq = some seq)
    (right : b.requestSeq = some seq) : a = b := by
  have unique : ((correlate codec messages).exchanges.filterMap Exchange.requestSeq).Nodup :=
    (correlate_requests codec messages).nodup_iff.2 (seqsOf_nodup distinct _)
  exact eq_of_filterMap_nodup unique first second left right

/-- A response without a tool failure is exactly what the inventory asks of an answered call. -/
theorem isListed_iff {exchange : Exchange} (member : exchange ∈ (correlate codec messages).exchanges) :
    exchange.isListed = true ↔ exchange ∈ answeredRequests codec messages ∧ exchange.status ≠ .toolError := by
  have settled := correlate_settled codec messages member
  simp only [answeredRequests, List.mem_filter, member, true_and, Exchange.isListed, MockSession.isServed,
    Bool.and_eq_true, Option.isSome_iff_ne_none, decide_eq_true_eq]
  constructor
  · rintro ⟨⟨⟨origin, served⟩, asked⟩, answered⟩
    refine ⟨⟨⟨origin, asked⟩, answered⟩, fun failed => ?_⟩
    rw [failed] at served
    cases served
  · rintro ⟨⟨⟨origin, asked⟩, answered⟩, plain⟩
    have status := settled.2 ⟨asked, answered⟩
    refine ⟨⟨⟨origin, ?_⟩, asked⟩, answered⟩
    unfold Exchange.isAnswered at status
    cases outcome : exchange.status <;> simp_all

theorem madeFrom_of_sends (distinct : (messages.map StoredMessage.seq).Nodup) {exchange : Exchange}
    {recorded : RecordedExchange} {request : Value} (describes : recorded.Describes codec messages exchange)
    (sends : exchange.Sends codec messages request) : recorded.MadeFrom codec request := by
  obtain ⟨own, ⟨asking, askingIn, seq, parsed⟩, method, toolName, paramsKey, params⟩ := describes.request
  obtain ⟨message, member, asked, sent⟩ := sends
  have same : message.seq = asking.seq := by
    rw [seq]
    exact Option.some.inj (asked.symm.trans describes.requestSeq)
  obtain rfl : message = asking := List.inj_on_of_nodup_map distinct member askingIn same
  obtain rfl : request = own := Option.some.inj (sent.symm.trans parsed)
  refine ⟨method, toolName, paramsKey, params, ?_⟩
  have formed := codec.fromStr_wellFormed sent
  unfold paramsOf
  cases found : request.get "params" with
  | none => rfl
  | some value => exact Value.wellFormed_get formed found

/-- Replayed against its own recording, a session is answered as it was exactly when no answered call
of the client failed in the tool. -/
theorem replay_own_recording_iff (codec : Codec) (messages : List StoredMessage)
    (distinct : (messages.map StoredMessage.seq).Nodup) (strategy : MatchStrategy) (mock : MockSession)
    (built : MockSession.fromMessagesWithStrategy codec messages strategy = .ok mock)
    (requests : List Value)
    (sent : List.Forall₂ (Exchange.Sends codec messages) (answeredRequests codec messages) requests) :
    List.Forall₂ (Exchange.Returns codec messages) (answeredRequests codec messages)
        (mock.replay codec requests) ↔
      ∀ exchange ∈ answeredRequests codec messages, exchange.status ≠ .toolError := by
  obtain ⟨-, describes⟩ := fromMessagesWithStrategy_describes distinct built
  constructor
  · -- The answer to a call that failed in the tool would have to come from an entry that is not there.
    intro returns exchange member failed
    obtain ⟨position, found⟩ := List.mem_iff_getElem?.1 member
    obtain ⟨lengths, pointwise⟩ := forall₂_iff_getElem?.1 returns
    have inside : position < (mock.replay codec requests).length := by
      rw [← lengths]
      exact (List.getElem?_eq_some_iff.1 found).1
    obtain ⟨returned, answer, asked, -⟩ :=
      pointwise position exchange _ found (List.getElem?_eq_getElem inside)
    have answered : some returned ∈ mock.replay codec requests := answer ▸ List.getElem_mem inside
    obtain ⟨recorded, entry, same⟩ := List.mem_map.1 (MockSession.replay_source answered)
    obtain ⟨source, listed, described⟩ := exists_of_forall₂_right describes entry
    obtain ⟨sourceIn, kept⟩ := List.mem_filter.1 listed
    have exchangeIn := (List.mem_filter.1 member).1
    obtain rfl : source = exchange := by
      refine exchange_of_requestSeq distinct sourceIn exchangeIn (described.requestSeq) ?_
      rw [asked, same]
    exact ((isListed_iff sourceIn).1 kept).2 failed
  · intro plain
    have complete : (correlate codec messages).exchanges.filter Exchange.isListed =
        answeredRequests codec messages := by
      refine List.filter_congr fun exchange member => Bool.eq_iff_iff.2 ?_
      rw [isListed_iff member]
      constructor
      · exact fun listed => (List.mem_filter.1 listed.1).2
      · intro answered
        have inside : exchange ∈ answeredRequests codec messages := List.mem_filter.2 ⟨member, answered⟩
        exact ⟨inside, plain exchange inside⟩
    rw [complete] at describes
    have made : List.Forall₂ (RecordedExchange.MadeFrom codec) mock.exchanges requests := by
      refine forall₂_common ?_ describes sent
      exact fun exchange recorded request described sends => madeFrom_of_sends distinct described sends
    have unused : ∀ entry ∈ mock.exchanges, entry.used = false := fun entry member => by
      obtain ⟨exchange, -, described⟩ := exists_of_forall₂_right describes member
      exact described.unused
    have answers := MockSession.replay_recorded made unused (List.nil_append _).symm (by simp)
    rw [answers, List.forall₂_map_right_iff]
    exact describes.imp fun exchange recorded described =>
      ⟨recorded.answer, rfl, described.requestSeq, described.responseSeq, described.response⟩

end Session

/-- A call of the tool `echo`. -/
def echoCall : Value :=
  .object [("id", .number (.posInt 1)), ("method", .string "tools/call"),
    ("params", .object [("name", .string "echo")])]

/-- The call and a response to it with this result. -/
def echoed (result : List (String × Value)) : List StoredMessage :=
  [McpMessage.mk 0 0 .clientToServer echoCall 0,
    McpMessage.mk 1 5 .serverToClient (.object [("id", .number (.posInt 1)), ("result", .object result)]) 0].map
      (StoredMessage.ofMessage Compact.codec)

/-- The exchange of the call with its response. -/
def echoExchange (status : ExchangeStatus) : Exchange :=
  ⟨some 0, some 1, some "1", .clientToServer, some "tools/call", some "echo", status, some 5, none, some 0,
    some 5⟩

theorem echoed_sent (result : List (String × Value)) (status : ExchangeStatus)
    (answered : answeredRequests Compact.codec (echoed result) = [echoExchange status]) :
    List.Forall₂ (Exchange.Sends Compact.codec (echoed result))
      (answeredRequests Compact.codec (echoed result)) [echoCall] := by
  have parsed : Compact.codec.fromStr (Compact.codec.toString echoCall) = some echoCall := by decide +kernel
  rw [answered]
  exact .cons ⟨StoredMessage.ofMessage Compact.codec ⟨0, 0, .clientToServer, echoCall, 0⟩,
    List.mem_cons_self, rfl, parsed⟩ .nil

/-- The inventory of the call when it succeeds. -/
def echoMock : MockSession :=
  ⟨[⟨"tools/call", some "echo", Compact.codec.toString (.object [("name", .string "echo")]),
    .object [("name", .string "echo")],
    .object [("id", .number (.posInt 1)), ("result", .object [])], 0, 1, false⟩], .methodAndParams⟩

theorem replay_own_recording_echoed :
    List.Forall₂ (Exchange.Returns Compact.codec (echoed []))
      (answeredRequests Compact.codec (echoed [])) (echoMock.replay Compact.codec [echoCall]) := by
  have answered : answeredRequests Compact.codec (echoed []) = [echoExchange .ok] := by decide +kernel
  refine (replay_own_recording_iff Compact.codec (echoed []) (by decide) .methodAndParams echoMock
    (by decide +kernel) [echoCall] (echoed_sent [] .ok answered)).2 ?_
  rw [answered]
  decide

/-- A call that failed in the tool was answered, but the mock server has no answer to it. -/
theorem tool_error_not_replayed :
    ¬ ∀ (messages : List StoredMessage) (strategy : MatchStrategy) (mock : MockSession)
        (requests : List Value), (messages.map StoredMessage.seq).Nodup →
      MockSession.fromMessagesWithStrategy Compact.codec messages strategy = .ok mock →
      List.Forall₂ (Exchange.Sends Compact.codec messages)
        (answeredRequests Compact.codec messages) requests →
      List.Forall₂ (Exchange.Returns Compact.codec messages)
        (answeredRequests Compact.codec messages) (mock.replay Compact.codec requests) := by
  intro replays
  have answered : answeredRequests Compact.codec (echoed [("isError", .bool true)]) =
      [echoExchange .toolError] := by decide +kernel
  have returns := replays (echoed [("isError", .bool true)]) .methodAndParams ⟨[], .methodAndParams⟩
    [echoCall] (by decide) (by decide +kernel) (echoed_sent _ .toolError answered)
  have unanswered : MockSession.replay Compact.codec ⟨[], .methodAndParams⟩ [echoCall] = [none] := by
    decide +kernel
  rw [answered, unanswered] at returns
  cases returns with
  | cons first _ =>
    obtain ⟨returned, impossible, -⟩ := first
    cases impossible

end McpTracer.Model
