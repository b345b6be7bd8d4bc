import McpTracer.Model.Alignment
import McpTracer.Model.Answering
import McpTracer.Model.Replay
import McpTracer.Model.Requests

/-! The times between requests and their responses.

The pass subtracts the time of a request from that of the response that finds it open. So it computes
the difference of every request and its response and no other, and every exchange has the difference of
its own two messages. The exchanges that two sessions are aligned by belong to the requests at one rank
under one text.
-/

set_option autoImplicit false

namespace McpTracer.Model
open McpTracer.Foundation McpTracer.Json McpTracer.Protocol McpTracer.Storage

/-- The response is there and answers the request. -/
def Paired (codec : Codec) (messages : List StoredMessage) (request response : StoredMessage) : Prop :=
  ∃ earlier between after, messages = earlier ++ request :: (between ++ response :: after) ∧
    Answers codec request between response

theorem paired_iff_split {codec : Codec} {messages : List StoredMessage} {request response : StoredMessage} :
    Paired codec messages request response ↔ ∃ before after, messages = before ++ response :: after ∧
      ∃ earlier between, before = earlier ++ request :: between ∧ Answers codec request between response := by
  constructor
  · rintro ⟨earlier, between, after, rfl, answers⟩
    exact ⟨earlier ++ request :: between, after, by simp, earlier, between, rfl, answers⟩
  · rintro ⟨before, after, rfl, earlier, between, rfl, answers⟩
    exact ⟨earlier, between, after, by simp, answers⟩

theorem Paired.mem {codec : Codec} {messages : List StoredMessage} {request response : StoredMessage}
    (paired : Paired codec messages request response) : request ∈ messages ∧ response ∈ messages := by
  obtain ⟨earlier, between, after, rfl, -⟩ := paired
  simp

/-! ## The times of an exchange -/

/-- The exchange has its numbers and times from these messages. -/
structure Exchange.Timed (messages : List StoredMessage) (exchange : Exchange)
    (request response : Option StoredMessage) : Prop where
  request_mem : ∀ message, request = some message → message ∈ messages
  response_mem : ∀ message, response = some message → message ∈ messages
  requestSeq : exchange.requestSeq = request.map StoredMessage.seq
  responseSeq : exchange.responseSeq = response.map StoredMessage.seq
  requestTsNs : exchange.requestTsNs = request.map StoredMessage.tsNs
  latencyNs : exchange.latencyNs =
    request.bind fun asked => response.map fun answer => answer.tsNs - asked.tsNs

section Times
variable {codec : Codec} {messages : List StoredMessage}

theorem correlate_timed {exchange : Exchange} (member : exchange ∈ (correlate codec messages).exchanges) :
    ∃ request response, exchange.Timed messages request response := by
  refine correlate_forall codec messages (P := fun exchange => ∃ request response,
    exchange.Timed messages request response) ?opened ?orphan ?answered ?cancelled ?acknowledged exchange member
  case opened =>
    intro message inside direction _ _
    have own : ∀ other, some message = some other → other ∈ messages := fun _ same => Option.some.inj same ▸ inside
    exact ⟨some message, none, ⟨own, nofun, rfl, rfl, rfl, rfl⟩⟩
  case orphan =>
    intro message inside direction
    have own : ∀ other, some message = some other → other ∈ messages := fun _ same => Option.some.inj same ▸ inside
    exact ⟨none, some message, ⟨nofun, own, rfl, rfl, rfl, rfl⟩⟩
  case answered =>
    intro message inside exchange before
    obtain ⟨request, response, timed⟩ := before
    have own : ∀ other, some message = some other → other ∈ messages := fun _ same => Option.some.inj same ▸ inside
    refine ⟨request, some message, ⟨timed.request_mem, own, timed.requestSeq, rfl, timed.requestTsNs, ?_⟩⟩
    -- Without a request there was no latency, and there is none now.
    cases request with
    | none => simp [Exchange.answered, timed.requestTsNs, timed.latencyNs]
    | some asked => simp [Exchange.answered, timed.requestTsNs]
  case cancelled =>
    intro exchange before
    obtain ⟨request, response, timed⟩ := before
    exact ⟨request, response, { timed with }⟩
  case acknowledged =>
    intro exchange before
    obtain ⟨request, response, timed⟩ := before
    refine ⟨request, response, ?_⟩
    unfold Exchange.acknowledged
    split
    · exact { timed with }
    · exact timed

/-- An exchange that has the number of a request has its time. -/
theorem requestTsNs_eq (increasing : StoredMessage.Increasing messages) {exchange : Exchange}
    (member : exchange ∈ (correlate codec messages).exchanges) {request : StoredMessage} (inside : request ∈ messages)
    (asked : exchange.requestSeq = some request.seq) : exchange.requestTsNs = some request.tsNs := by
  obtain ⟨recorded, response, timed⟩ := correlate_timed member
  rw [timed.requestSeq, Option.map_eq_some_iff] at asked
  obtain ⟨message, rfl, same⟩ := asked
  rw [timed.requestTsNs, Option.map_some,
    eq_of_seq_eq increasing (timed.request_mem message rfl) inside same]

/-- The latency of the exchange of a request is the time its response took. -/
theorem latencyNs_eq_some_iff (increasing : StoredMessage.Increasing messages) {exchange : Exchange}
    (member : exchange ∈ (correlate codec messages).exchanges) {request : StoredMessage} (inside : request ∈ messages)
    (asked : exchange.requestSeq = some request.seq) {latency : Int} :
    exchange.latencyNs = some latency ↔
      ∃ response, Paired codec messages request response ∧ latency = response.tsNs - request.tsNs := by
  have distinct : (messages.map StoredMessage.seq).Nodup := List.pairwise_map.2 (increasing.imp Nat.ne_of_lt)
  -- An exchange with the number of the request and of a response has the difference of their times.
  have difference {other : Exchange} {response : StoredMessage}
      (listed : other ∈ (correlate codec messages).exchanges) (also : response ∈ messages)
      (first : other.requestSeq = some request.seq) (second : other.responseSeq = some response.seq) :
      other.latencyNs = some (response.tsNs - request.tsNs) := by
    obtain ⟨recorded, answer, timed⟩ := correlate_timed listed
    rw [timed.requestSeq, Option.map_eq_some_iff] at first
    rw [timed.responseSeq, Option.map_eq_some_iff] at second
    obtain ⟨message, rfl, same⟩ := first
    obtain ⟨reply, rfl, equal⟩ := second
    rw [timed.latencyNs, Option.bind_some, Option.map_some,
      eq_of_seq_eq increasing (timed.request_mem message rfl) inside same,
      eq_of_seq_eq increasing (timed.response_mem reply rfl) also equal]
  constructor
  · intro took
    obtain ⟨recorded, answer, timed⟩ := correlate_timed member
    rw [timed.latencyNs, Option.bind_eq_some_iff] at took
    obtain ⟨message, rfl, took⟩ := took
    obtain ⟨response, rfl, -⟩ := Option.map_eq_some_iff.1 took
    obtain ⟨before, reply, after, shape, same, earlier, first, between, split, equal, answers⟩ :=
      paired_iff.1 ⟨exchange, member, asked, timed.responseSeq⟩
    have paired : Paired codec messages first reply :=
      paired_iff_split.2 ⟨before, after, shape, earlier, between, split, answers⟩
    obtain rfl := eq_of_seq_eq increasing paired.mem.1 inside equal
    refine ⟨reply, paired, ?_⟩
    have exact := difference member paired.mem.2 asked (by rw [timed.responseSeq, same]; rfl)
    rw [timed.latencyNs] at exact
    exact Option.some.inj (took.symm.trans exact)
  · rintro ⟨response, paired, rfl⟩
    obtain ⟨before, after, shape, earlier, between, split, answers⟩ := paired_iff_split.1 paired
    obtain ⟨other, listed, first, second⟩ :=
      paired_iff.2 ⟨before, response, after, shape, rfl, earlier, request, between, split, rfl, answers⟩
    obtain rfl := exchange_of_requestSeq distinct listed member first asked
    exact difference listed paired.mem.2 asked second

end Times

/-! ## What the pass computes -/

/-- The latency that a step computes: a response finds its request open. -/
def Correlation.latency (state : Correlation) (message : StoredMessage) : Option Int := do
  let direction ← Direction.fromDbStr message.direction
  guard (message.messageKind = "response")
  let id ← message.rpcId
  let index ← state.pending (direction, id)
  let exchange ← state.exchanges[index]?
  let requestTs ← exchange.requestTsNs
  return message.tsNs - requestTs

/-- The latencies that the pass computes from a state on, in their order. -/
def latenciesFrom (codec : Codec) : Correlation → List StoredMessage → List Int
  | _, [] => []
  | state, message :: rest => (state.latency message).toList ++ latenciesFrom codec (state.step codec message) rest

def computedLatencies (codec : Codec) (messages : List StoredMessage) : List Int :=
  latenciesFrom codec .start messages

section Computed
variable {codec : Codec} {messages history : List StoredMessage} {message : StoredMessage} {latency : Int}

/-- After a history, a step computes the time that a response took to the request it answers. -/
theorem latency_eq_some_iff (increasing : StoredMessage.Increasing history) :
    (history.foldl (Correlation.step codec) .start).latency message = some latency ↔
      ∃ earlier request between, history = earlier ++ request :: between ∧ Answers codec request between message ∧
        latency = message.tsNs - request.tsNs := by
  have tracks := tracks_foldl codec history
  -- An exchange that waits has the time of its request.
  have timed {key : Direction × String} {index : Nat} {request : StoredMessage} (inside : request ∈ history)
      (waits : Waiting (history.foldl (Correlation.step codec) .start).exchanges key index request) :
      ∃ exchange, (history.foldl (Correlation.step codec) .start).exchanges[index]? = some exchange ∧
        exchange.requestTsNs = some request.tsNs := by
    obtain ⟨exchange, found, sides, -⟩ := waits
    have member := (mem_correlate codec history exchange).2 (List.mem_of_getElem? found)
    exact ⟨exchange, found, requestTsNs_eq increasing member inside (Prod.mk.inj sides).1⟩
  simp only [Correlation.latency, Option.bind_eq_bind, Option.bind_eq_some_iff, Option.guard_eq_some',
    Option.pure_def, Option.some.injEq]
  constructor
  · intro computed
    obtain ⟨direction, known, _, kind, id, named, index, pending, exchange, found, requestTs, time, rfl⟩ := computed
    cases opened : openRequests codec history (direction, id) with
    | none =>
      rw [tracks.closed _ opened] at pending
      cases pending
    | some request =>
      obtain ⟨position, also, waits⟩ := tracks.waiting _ request opened
      obtain rfl : index = position := Option.some.inj (pending.symm.trans also)
      rw [← Direction.opposite_opposite direction] at opened
      obtain ⟨earlier, between, split, isRequest, calm⟩ :=
        (openRequests_eq_some_iff codec history direction.opposite id request).1 opened
      obtain ⟨waiting, here, since⟩ := timed (by simp [split]) waits
      obtain rfl : exchange = waiting := Option.some.inj (found.symm.trans here)
      rw [since, Option.some.injEq] at time
      have isResponse : IsResponse message direction.opposite.opposite id := by
        rw [Direction.opposite_opposite]
        exact ⟨(Direction.fromDbStr_eq_some_iff _ _).1 known, kind, named⟩
      exact ⟨earlier, request, between, split, ⟨direction.opposite, id, isRequest, isResponse, calm⟩, by rw [time]⟩
  · intro answered
    obtain ⟨earlier, request, between, split, ⟨direction, id, isRequest, isResponse, calm⟩, rfl⟩ := answered
    have opened := (openRequests_eq_some_iff codec history direction id request).2
      ⟨earlier, between, split, isRequest, calm⟩
    obtain ⟨index, pending, waits⟩ := tracks.waiting _ request opened
    obtain ⟨exchange, found, since⟩ := timed (by simp [split]) waits
    exact ⟨direction.opposite, (Direction.fromDbStr_eq_some_iff _ _).2 isResponse.1, (), isResponse.2.1, id,
      isResponse.2.2, index, pending, exchange, found, request.tsNs, since, rfl⟩

theorem mem_latenciesFrom_iff {state : Correlation} : latency ∈ latenciesFrom codec state messages ↔
    ∃ before message after, messages = before ++ message :: after ∧
      (before.foldl (Correlation.step codec) state).latency message = some latency := by
  induction messages generalizing state with
  | nil => simp [latenciesFrom]
  | cons first rest ih =>
    rw [latenciesFrom, List.mem_append, Option.mem_toList, ih]
    constructor
    · rintro (here | ⟨before, message, after, rfl, later⟩)
      · exact ⟨[], first, rest, rfl, here⟩
      · exact ⟨first :: before, message, after, rfl, later⟩
    · rintro ⟨before, message, after, split, computed⟩
      cases before with
      | nil =>
        obtain ⟨rfl, rfl⟩ := List.cons.inj split
        exact .inl computed
      | cons other before =>
        obtain ⟨rfl, rfl⟩ := List.cons.inj split
        exact .inr ⟨before, message, after, rfl, computed⟩

/-- The pass computes the difference of every request and its response. -/
theorem mem_computedLatencies_iff (increasing : StoredMessage.Increasing messages) :
    latency ∈ computedLatencies codec messages ↔
      ∃ request response, Paired codec messages request response ∧ latency = response.tsNs - request.tsNs := by
  rw [computedLatencies, mem_latenciesFrom_iff]
  have ordered {before after : List StoredMessage} (shape : messages = before ++ after) :
      StoredMessage.Increasing before := (List.pairwise_append.1 (shape ▸ increasing)).1
  constructor
  · rintro ⟨before, response, after, shape, computed⟩
    obtain ⟨earlier, request, between, split, answers, took⟩ := (latency_eq_some_iff (ordered shape)).1 computed
    exact ⟨request, response, paired_iff_split.2 ⟨before, after, shape, earlier, between, split, answers⟩, took⟩
  · rintro ⟨request, response, paired, took⟩
    obtain ⟨before, after, shape, earlier, between, split, answers⟩ := paired_iff_split.1 paired
    exact ⟨before, response, after, shape,
      (latency_eq_some_iff (ordered shape)).2 ⟨earlier, request, between, split, answers, took⟩⟩

end Computed

/-! ## Which requests are aligned -/

/-- The text under which the exchange of a request is counted. -/
def requestBase (message : StoredMessage) : Option String :=
  if message.messageKind = "request" then
    (Direction.fromDbStr message.direction).bind fun direction => alignmentBase (Exchange.opened direction message)
  else none

/-- The same text, from what an exchange keeps of its request. -/
def RequestRecord.base (request : RequestRecord) : Option String :=
  match request.method, request.toolName with
  | some method, some tool => some (originTag request.origin ++ (method ++ " " ++ tool))
  | some method, none => some (originTag request.origin ++ method)
  | none, _ => none

theorem requestBase_eq (message : StoredMessage) :
    requestBase message = (RequestRecord.ofMessage message).bind RequestRecord.base := by
  unfold requestBase RequestRecord.ofMessage
  split
  case isTrue => cases Direction.fromDbStr message.direction <;> rfl
  case isFalse => rfl

theorem alignmentBase_eq {codec : Codec} {messages : List StoredMessage} {exchange : Exchange}
    (member : exchange ∈ (correlate codec messages).exchanges) :
    alignmentBase exchange = exchange.request.bind RequestRecord.base := by
  cases asked : exchange.request with
  | none =>
    obtain ⟨method, -⟩ := correlate_unnamed codec messages member asked
    simp [alignmentBase, method]
  | some request =>
    obtain ⟨seq, origin, method, tool⟩ := request_fields asked
    have plain : exchange.status ≠ .orphanResponse := fun orphan => by
      rw [((tracks_foldl codec messages).orphanStatus exchange ((mem_correlate codec messages exchange).1 member)).1
        orphan] at seq
      cases seq
    rw [alignmentBase, if_neg plain, origin, method, tool]
    rfl

section Ranks
variable {codec : Codec} {messages : List StoredMessage} (increasing : StoredMessage.Increasing messages)
include increasing

variable (codec) in
theorem labelled_requests (base : String) :
    (Occurrence.labelled alignmentBase base (correlate codec messages).exchanges).map Exchange.request =
      (Occurrence.labelled requestBase base messages).map RequestRecord.ofMessage := by
  rw [Occurrence.labelled_parts (g := RequestRecord.base) (fun exchange member => alignmentBase_eq member),
    Occurrence.labelled_parts (g := RequestRecord.base) (fun message _ => requestBase_eq message),
    correlate_requestRecords increasing]
  rfl

/-- The exchange at a rank under a text belongs to the request at that rank. -/
theorem request_at_rank {base : String} {n : Nat} {exchange : Exchange}
    (here : (Occurrence.labelled alignmentBase base (correlate codec messages).exchanges)[n]? = some exchange) :
    ∃ request, (Occurrence.labelled requestBase base messages)[n]? = some request ∧
      exchange.requestSeq = some request.seq := by
  have same := congrArg (fun records => records[n]?) (labelled_requests codec increasing base)
  simp only [List.getElem?_map, here, Option.map_some] at same
  obtain ⟨request, found, record⟩ := Option.map_eq_some_iff.1 same.symm
  refine ⟨request, found, ?_⟩
  have labelled := of_decide_eq_true (List.mem_filter.1 (List.mem_of_getElem? found)).2
  rw [requestBase_eq, Option.bind_eq_some_iff] at labelled
  obtain ⟨fields, read, -⟩ := labelled
  rw [read] at record
  rw [(request_fields record.symm).1, (ofMessage_eq_some_iff.1 read).2.2.1]

theorem exchange_at_rank {base : String} {n : Nat} {request : StoredMessage}
    (here : (Occurrence.labelled requestBase base messages)[n]? = some request) :
    ∃ exchange, (Occurrence.labelled alignmentBase base (correlate codec messages).exchanges)[n]? = some exchange ∧
      exchange.requestSeq = some request.seq := by
  have same := congrArg (fun records => records[n]?) (labelled_requests codec increasing base)
  simp only [List.getElem?_map, here, Option.map_some] at same
  obtain ⟨exchange, found, -⟩ := Option.map_eq_some_iff.1 same
  obtain ⟨other, also, asked⟩ := request_at_rank increasing found
  obtain rfl : request = other := Option.some.inj (here.symm.trans also)
  exact ⟨exchange, found, asked⟩

end Ranks

/-! ## What the comparison computes -/

/-- The latency delta of two exchanges and its absolute value, where the comparison takes them. -/
def latencyArithmetic (options : DiffOptions) (a b : Exchange) : List Int :=
  if options.ignoreLatency then []
  else
    match a.latencyNs, b.latencyNs with
    | some fromNs, some toNs => [toNs - fromNs, |toNs - fromNs|]
    | _, _ => []

/-- What is computed on the latencies of the exchanges that are aligned. -/
def computedDeltas (codec : Codec) (as bs : List StoredMessage) (options : DiffOptions) : List Int :=
  let bIndex := Table.ofList (alignmentKeys (correlate codec bs).exchanges)
  (alignmentKeys (correlate codec as).exchanges).flatMap fun (key, a) =>
    ((bIndex key).map (latencyArithmetic options a)).getD []

theorem mem_latencyArithmetic_iff {options : DiffOptions} {a b : Exchange} {value : Int} :
    value ∈ latencyArithmetic options a b ↔ options.ignoreLatency = false ∧ ∃ fromNs toNs,
      a.latencyNs = some fromNs ∧ b.latencyNs = some toNs ∧ (value = toNs - fromNs ∨ value = |toNs - fromNs|) := by
  unfold latencyArithmetic
  cases options.ignoreLatency with
  | true => simp
  | false => cases left : a.latencyNs <;> cases right : b.latencyNs <;> simp

theorem mem_alignmentKeys_iff {exchanges : List Exchange} {key : String} {exchange : Exchange} :
    (key, exchange) ∈ alignmentKeys exchanges ↔ ∃ base n, key = Occurrence.render (base, n) ∧
      (Occurrence.labelled alignmentBase base exchanges)[n]? = some exchange := by
  simp only [alignmentKeys, Occurrence.keyed, List.mem_map, Prod.mk.injEq]
  constructor
  · rintro ⟨⟨⟨base, n⟩, other⟩, tagged, rfl, rfl⟩
    exact ⟨base, n, rfl, (Occurrence.mem_tag_iff ..).1 tagged⟩
  · rintro ⟨base, n, rfl, here⟩
    exact ⟨((base, n), exchange), (Occurrence.mem_tag_iff ..).2 here, rfl, rfl⟩

theorem mem_computedDeltas {codec : Codec} {as bs : List StoredMessage} {options : DiffOptions} {value : Int} :
    value ∈ computedDeltas codec as bs options ↔ ∃ (base : String) (n : Nat) (a b : Exchange),
      (Occurrence.labelled alignmentBase base (correlate codec as).exchanges)[n]? = some a ∧
      (Occurrence.labelled alignmentBase base (correlate codec bs).exchanges)[n]? = some b ∧
      value ∈ latencyArithmetic options a b := by
  have looked {key : String} {b : Exchange} : Table.ofList (alignmentKeys (correlate codec bs).exchanges) key = some b ↔
      (key, b) ∈ alignmentKeys (correlate codec bs).exchanges := Table.ofList_eq_some_iff (alignmentKeys_nodup _) _ _
  simp only [computedDeltas, List.mem_flatMap, Prod.exists]
  constructor
  · rintro ⟨key, a, listed, computed⟩
    obtain ⟨base, n, rfl, left⟩ := mem_alignmentKeys_iff.1 listed
    cases found : Table.ofList (alignmentKeys (correlate codec bs).exchanges) (Occurrence.render (base, n)) with
    | none => simp [found] at computed
    | some b =>
      obtain ⟨other, m, same, right⟩ := mem_alignmentKeys_iff.1 (looked.1 found)
      obtain ⟨rfl, rfl⟩ := Prod.mk.inj (Occurrence.render_injective same)
      exact ⟨base, n, a, b, left, right, by simpa [found] using computed⟩
  · rintro ⟨base, n, a, b, left, right, computed⟩
    refine ⟨Occurrence.render (base, n), a, mem_alignmentKeys_iff.2 ⟨base, n, rfl, left⟩, ?_⟩
    rw [looked.2 (mem_alignmentKeys_iff.2 ⟨base, n, rfl, right⟩)]
    exact computed

/-- Two answered requests, one of each session, that stand at one rank under one text. -/
structure AlignedCalls (codec : Codec) (as bs : List StoredMessage) (request response other reply : StoredMessage) :
    Prop where
  rank : ∃ (base : String) (n : Nat), (Occurrence.labelled requestBase base as)[n]? = some request ∧
    (Occurrence.labelled requestBase base bs)[n]? = some other
  paired : Paired codec as request response
  otherPaired : Paired codec bs other reply

/-- How much longer the second call took. -/
def latencyDelta (request response other reply : StoredMessage) : Int :=
  (reply.tsNs - other.tsNs) - (response.tsNs - request.tsNs)

/-- The comparison computes the delta of every two aligned calls, and its absolute value. -/
theorem mem_computedDeltas_iff {codec : Codec} {as bs : List StoredMessage} (first : StoredMessage.Increasing as)
    (second : StoredMessage.Increasing bs) {options : DiffOptions} {value : Int} :
    value ∈ computedDeltas codec as bs options ↔ options.ignoreLatency = false ∧
      ∃ request response other reply, AlignedCalls codec as bs request response other reply ∧
        (value = latencyDelta request response other reply ∨ value = |latencyDelta request response other reply|) := by
  have listed {label : Exchange → Option String} {base : String} {n : Nat} {exchanges : List Exchange} {x : Exchange}
      (here : (Occurrence.labelled label base exchanges)[n]? = some x) : x ∈ exchanges :=
    (List.mem_filter.1 (List.mem_of_getElem? here)).1
  simp only [mem_computedDeltas, mem_latencyArithmetic_iff]
  constructor
  · rintro ⟨base, n, a, b, left, right, reads, fromNs, toNs, took, also, result⟩
    obtain ⟨request, here, asked⟩ := request_at_rank first left
    obtain ⟨other, there, otherAsked⟩ := request_at_rank second right
    have inside : request ∈ as := (List.mem_filter.1 (List.mem_of_getElem? here)).1
    have otherInside : other ∈ bs := (List.mem_filter.1 (List.mem_of_getElem? there)).1
    obtain ⟨response, paired, rfl⟩ := (latencyNs_eq_some_iff first (listed left) inside asked).1 took
    obtain ⟨reply, otherPaired, rfl⟩ := (latencyNs_eq_some_iff second (listed right) otherInside otherAsked).1 also
    exact ⟨reads, request, response, other, reply, ⟨⟨base, n, here, there⟩, paired, otherPaired⟩, result⟩
  · rintro ⟨reads, request, response, other, reply, aligned, result⟩
    obtain ⟨base, n, here, there⟩ := aligned.rank
    obtain ⟨a, left, asked⟩ := exchange_at_rank first here
    obtain ⟨b, right, otherAsked⟩ := exchange_at_rank second there
    exact ⟨base, n, a, b, left, right, reads, _, _,
      (latencyNs_eq_some_iff first (listed left) aligned.paired.mem.1 asked).2 ⟨response, aligned.paired, rfl⟩,
      (latencyNs_eq_some_iff second (listed right) aligned.otherPaired.mem.1 otherAsked).2
        ⟨reply, aligned.otherPaired, rfl⟩, result⟩

end McpTracer.Model
