import McpTracer.Model.Pairing

/-! Correlation of two sessions that correspond message by message.

The sessions may use different ids, as long as the names match one to one, and
a response of the second session may have lost the report of a tool failure.
The exchanges then correspond one by one, and their outcomes are the same as
long as no answer to a tool call has lost its report.
-/

set_option autoImplicit false

namespace McpTracer.Model
open McpTracer.Foundation McpTracer.Json McpTracer.Protocol McpTracer.Storage

/-- Which id text of one session is which of the other, by the side that responds. -/
abbrev Names := Direction × String → Direction × String → Prop

/-- Texts that name the same open request at a responder. -/
def Names.At (names : Names) (direction : Direction) (x y : String) : Prop :=
  names (direction, x) (direction, y)

/-- Two messages that differ in payload and id text only, and play the same role. -/
structure MessagesCorrespond (codec : Codec) (names : Names) (m n : StoredMessage) : Prop where
  seq : m.seq = n.seq
  tsNs : m.tsNs = n.tsNs
  direction : m.direction = n.direction
  messageKind : m.messageKind = n.messageKind
  method : m.method = n.method
  toolName : m.toolName = n.toolName
  isError : m.isError = n.isError
  errorCode : m.errorCode = n.errorCode
  request : ∀ side, Direction.fromDbStr m.direction = some side → m.messageKind = "request" →
    Option.Rel (names.At side.opposite) m.rpcId n.rpcId
  response : ∀ side, Direction.fromDbStr m.direction = some side → m.messageKind = "response" →
    Option.Rel (names.At side) m.rpcId n.rpcId
  cancelled : ∀ side, Direction.fromDbStr m.direction = some side → m.messageKind = "notification" →
    Option.Rel (names.At side.opposite) (cancelledId codec m) (cancelledId codec n)
  acknowledged : Direction.fromDbStr m.direction = some .serverToClient →
    m.messageKind = "notification" →
    Option.Rel (names.At .serverToClient) (subscriptionId codec m) (subscriptionId codec n)
  toolError : m.messageKind = "response" → Exchange.reportsToolError codec n = true →
    Exchange.reportsToolError codec m = true

/-- Exchanges that differ in the id text only, or in a tool failure that is no longer reported. -/
structure ExchangesCorrespond (a b : Exchange) : Prop where
  requestSeq : a.requestSeq = b.requestSeq
  responseSeq : a.responseSeq = b.responseSeq
  origin : a.origin = b.origin
  method : a.method = b.method
  toolName : a.toolName = b.toolName
  latencyNs : a.latencyNs = b.latencyNs
  errorCode : a.errorCode = b.errorCode
  requestTsNs : a.requestTsNs = b.requestTsNs
  responseTsNs : a.responseTsNs = b.responseTsNs
  status : a.status = b.status ∨ a.status = .toolError ∧ b.status = .ok ∧
    a.method = some "tools/call" ∧ a.responseSeq ≠ none

/-- The response answers an open tool call, and only its first version reports a failure. -/
def LosesToolError (codec : Codec) (history : List StoredMessage) (m n : StoredMessage) : Prop :=
  m.isError = false ∧ Exchange.reportsToolError codec m = true ∧
    Exchange.reportsToolError codec n = false ∧
    ∃ direction id request, IsResponse m direction id ∧
      openRequests codec history (direction, id) = some request ∧ request.method = some "tools/call"

/-- No response to a tool call has lost its report of a failure. -/
def ToolErrorsKept (codec : Codec) (pairs : List (StoredMessage × StoredMessage)) : Prop :=
  ∀ before pair after, pairs = before ++ pair :: after →
    ¬ LosesToolError codec (before.map Prod.fst) pair.1 pair.2

theorem toolErrorsKept_concat (codec : Codec) (pairs : List (StoredMessage × StoredMessage))
    (last : StoredMessage × StoredMessage) :
    ToolErrorsKept codec (pairs ++ [last]) ↔
      ToolErrorsKept codec pairs ∧ ¬ LosesToolError codec (pairs.map Prod.fst) last.1 last.2 := by
  constructor
  · exact fun kept => ⟨fun before pair after shape => kept before pair (after ++ [last]) (by simp [shape]),
      kept pairs last [] rfl⟩
  · rintro ⟨kept, lastKept⟩ before pair after shape
    rcases concat_place shape with ⟨rfl, rfl, -⟩ | ⟨middle, -, rfl⟩
    · exact lastKept
    · exact kept before pair middle rfl

/-- Two passes over corresponding messages. -/
structure StatesCorrespond (names : Names) (s t : Correlation) : Prop where
  exchanges : List.Forall₂ ExchangesCorrespond s.exchanges t.exchanges
  pending : Table.Corresponds names s.pending t.pending

/-- The outcomes are the same, exchange by exchange. -/
def SameOutcomes (s t : Correlation) : Prop :=
  List.Forall₂ (fun a b : Exchange => a.status = b.status) s.exchanges t.exchanges

/-! ## Step lemmas -/

section Step
variable {codec : Codec} {names : Names} {history : List StoredMessage} {s t : Correlation}
  {m n : StoredMessage} {direction : Direction}

theorem opened_corresponds (message : MessagesCorrespond codec names m n) :
    ExchangesCorrespond (Exchange.opened direction m) (Exchange.opened direction n) := by
  simp only [Exchange.opened]
  exact ⟨by simp [message.seq], rfl, rfl, message.method, message.toolName, rfl, rfl,
    by simp [message.tsNs], rfl, .inl rfl⟩

theorem orphan_corresponds (message : MessagesCorrespond codec names m n) :
    ExchangesCorrespond (Exchange.orphan direction m) (Exchange.orphan direction n) := by
  simp only [Exchange.orphan]
  exact ⟨rfl, by simp [message.seq], rfl, rfl, rfl, rfl, message.errorCode, rfl,
    by simp [message.tsNs], .inl rfl⟩

theorem answered_corresponds {a b : Exchange} (exchange : ExchangesCorrespond a b)
    (message : MessagesCorrespond codec names m n) (kind : m.messageKind = "response") :
    ExchangesCorrespond (a.answered codec m) (b.answered codec n) := by
  -- The response overwrites its number, its time, the error code and the outcome.
  obtain ⟨requestSeq, -, origin, method, toolName, latencyNs, -, requestTsNs, -, -⟩ := exchange
  refine ⟨requestSeq, ?_, origin, method, toolName, ?_, message.errorCode, requestTsNs, ?_, ?_⟩
  · simp [Exchange.answered, message.seq]
  · simp [Exchange.answered, message.tsNs, requestTsNs, latencyNs]
  · simp [Exchange.answered, message.tsNs]
  · have weaker := message.toolError kind
    simp only [Exchange.answered, ← message.isError, ← method]
    generalize Exchange.reportsToolError codec m = before at weaker ⊢
    generalize Exchange.reportsToolError codec n = after at weaker ⊢
    by_cases call : a.method = some "tools/call" <;> cases before <;> cases after <;>
      cases m.isError <;> simp [call] at weaker ⊢

/-- The new outcomes differ exactly when a reported failure of a tool call is lost. -/
theorem answered_status_iff {a b : Exchange} (exchange : ExchangesCorrespond a b)
    (message : MessagesCorrespond codec names m n) (kind : m.messageKind = "response") :
    (a.answered codec m).status = (b.answered codec n).status ↔
      ¬ (m.isError = false ∧ Exchange.reportsToolError codec m = true ∧
        Exchange.reportsToolError codec n = false ∧ a.method = some "tools/call") := by
  have weaker := message.toolError kind
  simp only [Exchange.answered, ← message.isError, ← exchange.method]
  generalize Exchange.reportsToolError codec m = before at weaker ⊢
  generalize Exchange.reportsToolError codec n = after at weaker ⊢
  by_cases call : a.method = some "tools/call" <;> cases before <;> cases after <;>
    cases m.isError <;> simp [call] at weaker ⊢

theorem request_corresponds (unique : Relator.BiUnique names) (states : StatesCorrespond names s t)
    (message : MessagesCorrespond codec names m n)
    (known : Direction.fromDbStr m.direction = some direction) (kind : m.messageKind = "request") :
    StatesCorrespond names (s.request direction m) (t.request direction n) ∧
      (SameOutcomes (s.request direction m) (t.request direction n) ↔ SameOutcomes s t) := by
  have length := states.exchanges.length_eq
  refine ⟨⟨?_, ?_⟩, ?_⟩
  · exact (forall₂_concat length).mpr ⟨states.exchanges, opened_corresponds message⟩
  · have named := message.request direction known kind
    simp only [Correlation.request]
    generalize m.rpcId = id at named ⊢
    generalize n.rpcId = other at named ⊢
    cases named with
    | none => exact states.pending
    | some same =>
        rw [length]
        exact states.pending.insert unique same _
  · exact (forall₂_concat length).trans (and_iff_left rfl)

/-- Where nothing is open for a response, nothing is lost. -/
theorem not_losesToolError (known : Direction.fromDbStr m.direction = some direction)
    (absent : ∀ id, m.rpcId = some id → openRequests codec history (direction, id) = none) :
    ¬ LosesToolError codec history m n := by
  rintro ⟨-, -, -, side, id, request, response, opened, -⟩
  have written := (Direction.fromDbStr_eq_some_iff _ _).mp known
  obtain rfl : side = direction := asDbStr_inj.mp (response.1.symm.trans written)
  simp [absent id response.2.2] at opened

theorem losesToolError_iff {id : String} {request : StoredMessage}
    (known : Direction.fromDbStr m.direction = some direction) (kind : m.messageKind = "response")
    (identified : m.rpcId = some id) (opened : openRequests codec history (direction, id) = some request) :
    LosesToolError codec history m n ↔ m.isError = false ∧ Exchange.reportsToolError codec m = true ∧
      Exchange.reportsToolError codec n = false ∧ request.method = some "tools/call" := by
  have written := (Direction.fromDbStr_eq_some_iff _ _).mp known
  constructor
  · rintro ⟨plain, reports, lost, side, other, found, response, alsoOpened, call⟩
    obtain rfl : side = direction := asDbStr_inj.mp (response.1.symm.trans written)
    obtain rfl : id = other := Option.some.inj (identified.symm.trans response.2.2)
    obtain rfl : request = found := Option.some.inj (opened.symm.trans alsoOpened)
    exact ⟨plain, reports, lost, call⟩
  · rintro ⟨plain, reports, lost, call⟩
    exact ⟨plain, reports, lost, direction, id, request, ⟨written, kind, identified⟩, opened, call⟩

/-- The exchanges under a pending index correspond, and their outcomes are still the same. -/
theorem pending_corresponds (tracks : Tracks codec history s) (states : StatesCorrespond names s t)
    {key : Direction × String} {index : Nat} (pending : s.pending key = some index) :
    ∃ a b request, s.exchanges[index]? = some a ∧ t.exchanges[index]? = some b ∧
      ExchangesCorrespond a b ∧ a.status = b.status ∧
      openRequests codec history key = some request ∧ a.method = request.method := by
  cases opened : openRequests codec history key with
  | none => simp [tracks.closed key opened] at pending
  | some request =>
      obtain ⟨position, found, a, here, sides, -, -, method⟩ := tracks.waiting key request opened
      obtain rfl : index = position := Option.some.inj (pending.symm.trans found)
      obtain ⟨length, related⟩ := forall₂_iff_getElem?.mp states.exchanges
      have inside : index < t.exchanges.length := length ▸ (List.getElem?_eq_some_iff.mp here).1
      have there := List.getElem?_eq_getElem inside
      have exchange := related index a _ here there
      refine ⟨a, _, request, here, there, exchange, ?_, rfl, method⟩
      exact exchange.status.resolve_right fun lost => lost.2.2.2 (Prod.mk.inj sides).2

theorem orphan_states (states : StatesCorrespond names s t)
    (message : MessagesCorrespond codec names m n)
    (known : Direction.fromDbStr m.direction = some direction)
    (absent : ∀ id, m.rpcId = some id → openRequests codec history (direction, id) = none) :
    StatesCorrespond names { s with exchanges := s.exchanges ++ [Exchange.orphan direction m] }
        { t with exchanges := t.exchanges ++ [Exchange.orphan direction n] } ∧
      (SameOutcomes { s with exchanges := s.exchanges ++ [Exchange.orphan direction m] }
          { t with exchanges := t.exchanges ++ [Exchange.orphan direction n] } ↔
        SameOutcomes s t ∧ ¬ LosesToolError codec history m n) := by
  have length := states.exchanges.length_eq
  refine ⟨⟨(forall₂_concat length).mpr ⟨states.exchanges, orphan_corresponds message⟩,
    states.pending⟩, ?_⟩
  rw [and_iff_left (not_losesToolError known absent)]
  exact (forall₂_concat length).trans (and_iff_left rfl)

theorem response_corresponds (unique : Relator.BiUnique names) (tracks : Tracks codec history s)
    (states : StatesCorrespond names s t) (message : MessagesCorrespond codec names m n)
    (known : Direction.fromDbStr m.direction = some direction) (kind : m.messageKind = "response") :
    StatesCorrespond names (s.response codec direction m) (t.response codec direction n) ∧
      (SameOutcomes (s.response codec direction m) (t.response codec direction n) ↔
        SameOutcomes s t ∧ ¬ LosesToolError codec history m n) := by
  have named := message.response direction known kind
  cases left : m.rpcId with
  | none =>
      have right : n.rpcId = none := by
        generalize n.rpcId = other at named
        rw [left] at named
        cases named
        rfl
      have absent : ∀ id, m.rpcId = some id → openRequests codec history (direction, id) = none := by
        simp [left]
      simpa [Correlation.response, left, right] using orphan_states states message known absent
  | some id =>
      obtain ⟨other, right, same⟩ : ∃ other, n.rpcId = some other ∧ names.At direction id other := by
        generalize n.rpcId = text at named
        rw [left] at named
        cases named with
        | some same => exact ⟨_, rfl, same⟩
      have pendings : s.pending (direction, id) = t.pending (direction, other) := states.pending _ _ same
      cases pending : s.pending (direction, id) with
      | none =>
          -- An open request would be pending.
          have absent : ∀ x, m.rpcId = some x → openRequests codec history (direction, x) = none := by
            rw [left]
            rintro x ⟨⟩
            by_contra opened
            obtain ⟨request, found⟩ := Option.ne_none_iff_exists'.mp opened
            obtain ⟨index, held, -⟩ := tracks.waiting _ request found
            simp [pending] at held
          rw [pending] at pendings
          simpa [Correlation.response, left, right, pending, ← pendings] using
            orphan_states states message known absent
      | some index =>
          obtain ⟨a, b, request, here, there, exchange, status, opened, method⟩ :=
            pending_corresponds tracks states pending
          rw [pending] at pendings
          simp only [Correlation.response, left, right, pending, ← pendings, Option.bind_some,
            Option.map_some]
          refine ⟨⟨?_, states.pending.erase unique same⟩, ?_⟩
          · exact (forall₂_modify_iff here there exchange _ _).mpr
              ⟨states.exchanges, answered_corresponds exchange message kind⟩
          · refine (forall₂_modify_iff here there status _ _).trans (and_congr_right' ?_)
            rw [answered_status_iff exchange message kind, losesToolError_iff known kind left opened,
              method]

theorem cancellation_corresponds (unique : Relator.BiUnique names) (tracks : Tracks codec history s)
    (states : StatesCorrespond names s t) (message : MessagesCorrespond codec names m n)
    (known : Direction.fromDbStr m.direction = some direction) (kind : m.messageKind = "notification") :
    StatesCorrespond names (s.cancellation codec direction m) (t.cancellation codec direction n) ∧
      (SameOutcomes (s.cancellation codec direction m) (t.cancellation codec direction n) ↔
        SameOutcomes s t) := by
  have named := message.cancelled direction known kind
  unfold Correlation.cancellation
  generalize cancelledId codec m = id at named ⊢
  generalize cancelledId codec n = other at named ⊢
  cases named with
  | none => exact ⟨states, Iff.rfl⟩
  | @some id other same =>
      have pendings := states.pending _ _ same
      cases pending : s.pending (direction.opposite, id) with
      | none =>
          rw [pending] at pendings
          simpa only [Option.bind_some, pending, ← pendings, Option.map_none] using ⟨states, trivial⟩
      | some index =>
          obtain ⟨a, b, request, here, there, exchange, status, -, -⟩ :=
            pending_corresponds tracks states pending
          rw [pending] at pendings
          simp only [Option.bind_some, pending, ← pendings, Option.map_some]
          refine ⟨⟨?_, states.pending.erase unique same⟩, ?_⟩
          · obtain ⟨requestSeq, responseSeq, origin, method, toolName, latencyNs, errorCode,
              requestTsNs, responseTsNs, -⟩ := exchange
            exact (forall₂_modify_iff here there (by constructor <;> simp [*]) _ _).mpr
              ⟨states.exchanges, ⟨requestSeq, responseSeq, origin, method, toolName, latencyNs,
                errorCode, requestTsNs, responseTsNs, .inl rfl⟩⟩
          · exact (forall₂_modify_iff here there status _ _).trans (and_iff_left rfl)

theorem acknowledged_corresponds {a b : Exchange} (exchange : ExchangesCorrespond a b)
    (status : a.status = b.status) : ExchangesCorrespond a.acknowledged b.acknowledged ∧
      a.acknowledged.status = b.acknowledged.status := by
  unfold Exchange.acknowledged
  rw [← exchange.origin, ← exchange.method]
  obtain ⟨requestSeq, responseSeq, origin, method, toolName, latencyNs, errorCode, requestTsNs,
    responseTsNs, -⟩ := exchange
  split
  · exact ⟨⟨requestSeq, responseSeq, rfl, rfl, toolName, latencyNs, errorCode, requestTsNs,
      responseTsNs, .inl rfl⟩, rfl⟩
  · exact ⟨⟨requestSeq, responseSeq, origin, method, toolName, latencyNs, errorCode, requestTsNs,
      responseTsNs, .inl status⟩, status⟩

theorem acknowledgement_corresponds (tracks : Tracks codec history s)
    (states : StatesCorrespond names s t) (message : MessagesCorrespond codec names m n)
    (known : Direction.fromDbStr m.direction = some direction) (kind : m.messageKind = "notification") :
    StatesCorrespond names (s.acknowledgement codec direction m) (t.acknowledgement codec direction n) ∧
      (SameOutcomes (s.acknowledgement codec direction m) (t.acknowledgement codec direction n) ↔
        SameOutcomes s t) := by
  unfold Correlation.acknowledgement
  by_cases fromServer : direction = .serverToClient
  · subst fromServer
    have named := message.acknowledged known kind
    rw [if_pos rfl, if_pos rfl]
    generalize subscriptionId codec m = id at named ⊢
    generalize subscriptionId codec n = other at named ⊢
    cases named with
    | none => exact ⟨states, Iff.rfl⟩
    | @some id other same =>
        have pendings := states.pending _ _ same
        rw [Option.bind_some, Option.bind_some, ← pendings]
        cases pending : s.pending (.serverToClient, id) with
        | none => exact ⟨states, Iff.rfl⟩
        | some index =>
            obtain ⟨a, b, request, here, there, exchange, status, -, -⟩ :=
              pending_corresponds tracks states pending
            obtain ⟨acknowledged, after⟩ := acknowledged_corresponds exchange status
            refine ⟨⟨?_, states.pending⟩, ?_⟩
            · exact (forall₂_modify_iff here there exchange _ _).mpr ⟨states.exchanges, acknowledged⟩
            · exact (forall₂_modify_iff here there status _ _).trans (and_iff_left after)
  · rw [if_neg fromServer, if_neg fromServer]
    exact ⟨states, Iff.rfl⟩

theorem notification_corresponds (unique : Relator.BiUnique names) (tracks : Tracks codec history s)
    (states : StatesCorrespond names s t) (message : MessagesCorrespond codec names m n)
    (known : Direction.fromDbStr m.direction = some direction) (kind : m.messageKind = "notification") :
    StatesCorrespond names (s.notification codec direction m) (t.notification codec direction n) ∧
      (SameOutcomes (s.notification codec direction m) (t.notification codec direction n) ↔
        SameOutcomes s t) := by
  obtain ⟨cancelled, outcomes⟩ := cancellation_corresponds unique tracks states message known kind
  obtain ⟨⟨exchanges, pending⟩, after⟩ :=
    acknowledgement_corresponds (tracks_cancellation tracks known kind) cancelled message known kind
  exact ⟨⟨exchanges, pending⟩, after.trans outcomes⟩

/-- One message of both passes, by its direction and kind. -/
theorem corresponds_step (unique : Relator.BiUnique names) (tracks : Tracks codec history s)
    (states : StatesCorrespond names s t) (message : MessagesCorrespond codec names m n) :
    StatesCorrespond names (s.step codec m) (t.step codec n) ∧
      (SameOutcomes (s.step codec m) (t.step codec n) ↔
        SameOutcomes s t ∧ ¬ LosesToolError codec history m n) := by
  have harmless (plain : m.messageKind ≠ "response") : ¬ LosesToolError codec history m n :=
    fun ⟨_, _, _, _, _, _, response, _⟩ => plain response.2.1
  unfold Correlation.step
  rw [← message.direction, ← message.messageKind]
  cases known : Direction.fromDbStr m.direction with
  | none =>
      have unheard : ¬ LosesToolError codec history m n := by
        rintro ⟨-, -, -, side, id, request, response, -⟩
        simp [response.1] at known
      exact ⟨states, (and_iff_left unheard).symm⟩
  | some direction =>
      simp only
      split
      · rename_i kind
        obtain ⟨next, outcomes⟩ := request_corresponds unique states message known kind
        exact ⟨next, outcomes.trans (and_iff_left (harmless (by simp [kind]))).symm⟩
      · exact response_corresponds unique tracks states message known (by assumption)
      · rename_i kind
        obtain ⟨next, outcomes⟩ := notification_corresponds unique tracks states message known kind
        exact ⟨next, outcomes.trans (and_iff_left (harmless (by simp [kind]))).symm⟩
      · exact ⟨states, (and_iff_left (harmless (by assumption))).symm⟩

end Step

/-! ## The whole pass -/

section Run
variable {codec : Codec} {names : Names}

theorem corresponds_foldl (unique : Relator.BiUnique names)
    (pairs : List (StoredMessage × StoredMessage))
    (messages : ∀ pair ∈ pairs, MessagesCorrespond codec names pair.1 pair.2) :
    StatesCorrespond names ((pairs.map Prod.fst).foldl (Correlation.step codec) .start)
        ((pairs.map Prod.snd).foldl (Correlation.step codec) .start) ∧
      (SameOutcomes ((pairs.map Prod.fst).foldl (Correlation.step codec) .start)
          ((pairs.map Prod.snd).foldl (Correlation.step codec) .start) ↔
        ToolErrorsKept codec pairs) := by
  induction pairs using List.reverseRecOn with
  | nil =>
      refine ⟨⟨.nil, fun _ _ _ => rfl⟩, iff_of_true .nil fun before pair after shape => ?_⟩
      simp at shape
  | append_singleton pairs last ih =>
      obtain ⟨states, outcomes⟩ := ih fun pair member => messages pair (List.mem_append_left _ member)
      obtain ⟨next, same⟩ := corresponds_step unique (tracks_foldl codec (pairs.map Prod.fst)) states
        (messages last (by simp))
      rw [List.map_append, List.map_append, List.foldl_append, List.foldl_append,
        toolErrorsKept_concat, ← outcomes]
      exact ⟨next, same⟩

/-- The exchanges of corresponding sessions are the two sides of one list. -/
theorem correlate_corresponds (unique : Relator.BiUnique names) {as bs : List StoredMessage}
    (messages : List.Forall₂ (MessagesCorrespond codec names) as bs) :
    ∃ exchanges : List (Exchange × Exchange),
      exchanges.map Prod.fst = (correlate codec as).exchanges ∧
      exchanges.map Prod.snd = (correlate codec bs).exchanges ∧
      (∀ pair ∈ exchanges, ExchangesCorrespond pair.1 pair.2) ∧
      ((∀ pair ∈ exchanges, pair.1.status = pair.2.status) ↔ ToolErrorsKept codec (as.zip bs)) := by
  have left := List.map_fst_zip messages.length_eq.le
  have right := List.map_snd_zip messages.length_eq.ge
  obtain ⟨states, outcomes⟩ := corresponds_foldl unique (as.zip bs) fun _ member =>
    (List.forall₂_iff_zip.mp messages).2 member
  rw [left, right] at states outcomes
  obtain ⟨pairs, first, second, related⟩ := exists_pairs states.exchanges
  -- Both lists are sorted by numbers, and those are the same in each pair.
  have common : ∀ p ∈ pairs, ∀ q ∈ pairs,
      p.1.sortKey ≤ q.1.sortKey ↔ p.2.sortKey ≤ q.2.sortKey := by
    intro p pMember q qMember
    have same (pair : Exchange × Exchange) (member : pair ∈ pairs) : pair.1.sortKey = pair.2.sortKey := by
      rw [Exchange.sortKey, Exchange.sortKey, (related pair member).requestSeq,
        (related pair member).responseSeq]
    rw [same p pMember, same q qMember]
  obtain ⟨sorted, perm, sortedFirst, sortedSecond⟩ := map_insertionSort_pairs
    (r := fun a b : Exchange => a.sortKey ≤ b.sortKey) (s := fun a b => a.sortKey ≤ b.sortKey) pairs common
  refine ⟨sorted, ?_, ?_, fun pair member => related pair (perm.mem_iff.mp member), ?_⟩
  · rw [sortedFirst, first]
    rfl
  · rw [sortedSecond, second]
    rfl
  · rw [← outcomes, SameOutcomes, ← first, ← second, forall₂_pairs]
    exact forall_congr' fun pair => by rw [perm.mem_iff]

end Run

end McpTracer.Model
