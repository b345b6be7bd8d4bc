import McpTracer.Model.Assertions
import McpTracer.Model.Replay
import McpTracer.Model.Requests

/-! What the counting and ordering rules tell about the recorded requests.

The rules run over exchanges, which include responses without a request, in the
order of their sequence numbers. Their verdicts are stated over the request
messages. An order is met as meant unless one request matches both names and
comes before all others that match either.
-/

set_option autoImplicit false

namespace McpTracer.Model
open McpTracer.Foundation McpTracer.Json McpTracer.Protocol McpTracer.Storage

/-! ## Rules over the stream -/

/-- The request messages of a known direction. -/
def requestsOf (messages : List StoredMessage) : List StoredMessage := messages.filter (HasKind "request")

/-- The least count is one unless it is given. -/
def WithinBounds (count : Nat) (min max : Option Nat) : Prop := min.getD 1 ≤ count ∧ ∀ most, max = some most → count ≤ most

/-- The name is that of the method or of the tool. -/
def Named (message : StoredMessage) (name : String) : Prop :=
  message.method = some name ∨ message.toolName = some name

/-- Some request matches `after`, and each that does has an earlier one that matches `before`. -/
def FollowsBefore (messages : List StoredMessage) (before after : String) : Prop :=
  (∃ request ∈ requestsOf messages, Named request after) ∧
    ∀ request ∈ requestsOf messages, Named request after →
      ∃ earlier ∈ requestsOf messages, earlier.seq < request.seq ∧ Named earlier before

/-- A request that matches both names is not the first that matches any of them. -/
def FirstMatchesOne (messages : List StoredMessage) (before after : String) : Prop :=
  ∀ request ∈ requestsOf messages, Named request before → Named request after →
    ∃ earlier ∈ requestsOf messages, earlier.seq < request.seq ∧ (Named earlier before ∨ Named earlier after)

/-! ## Requests and exchanges -/

/-- What the rules look at in a request. -/
def namesOf (message : StoredMessage) : Nat × Option String × Option String :=
  (message.seq, message.method, message.toolName)

def RequestRecord.names (request : RequestRecord) : Nat × Option String × Option String :=
  (request.seq, request.method, request.toolName)

theorem requestRecords_names (messages : List StoredMessage) :
    (requestRecords messages).map RequestRecord.names = (requestsOf messages).map namesOf := by
  unfold requestRecords requestsOf
  induction messages with
  | nil => rfl
  | cons message rest ih =>
      by_cases request : HasKind "request" message
      · obtain ⟨direction, known⟩ := Option.ne_none_iff_exists'.1 request.1
        have asked : RequestRecord.ofMessage message = some
            ⟨message.seq, message.tsNs, direction, message.rpcId, message.method, message.toolName⟩ := by
          rw [RequestRecord.ofMessage, if_pos request.2, known, Option.map_some]
        rw [List.filterMap_cons_some asked, List.filter_cons_of_pos (by simpa using request), List.map_cons,
          List.map_cons, ih]
        rfl
      · have unasked : RequestRecord.ofMessage message = none := by
          unfold RequestRecord.ofMessage
          split_ifs with kind
          · have unknown : Direction.fromDbStr message.direction = none := by
              by_contra known
              exact request ⟨known, kind⟩
            rw [unknown, Option.map_none]
          · rfl
        rw [List.filterMap_cons_none unasked, List.filter_cons_of_neg (by simpa using request), ih]

theorem mem_positionsOf {exchanges : List Exchange} {name : String} {index : Nat} :
    index ∈ positionsOf exchanges name ↔
      ∃ exchange, exchanges[index]? = some exchange ∧ nameMatches exchange name = true := by
  simp only [positionsOf, List.mem_map, List.mem_filter, Prod.exists, List.mem_zipIdx_iff_getElem?]
  constructor
  · rintro ⟨exchange, position, ⟨found, matched⟩, rfl⟩
    exact ⟨exchange, found, matched⟩
  · rintro ⟨exchange, found, matched⟩
    exact ⟨exchange, index, ⟨found, matched⟩, rfl⟩

section Correspondence
variable {codec : Codec} {messages : List StoredMessage}

theorem exchanges_names (increasing : StoredMessage.Increasing messages) :
    ((correlate codec messages).exchanges.filterMap Exchange.request).map RequestRecord.names =
      (requestsOf messages).map namesOf := by
  rw [correlate_requestRecords increasing, requestRecords_names]

/-- Counting exchanges by their names is counting requests, since an exchange without a request has no names. -/
theorem countP_exchanges (increasing : StoredMessage.Increasing messages) (p : Option String → Option String → Bool)
    (unnamed : p none none = false) :
    ((correlate codec messages).exchanges.countP fun exchange => p exchange.method exchange.toolName) =
      (requestsOf messages).countP fun message => p message.method message.toolName := by
  have counted (exchanges : List Exchange)
      (without : ∀ exchange ∈ exchanges, exchange.request = none → exchange.method = none ∧ exchange.toolName = none) :
      (exchanges.countP fun exchange => p exchange.method exchange.toolName) =
        ((exchanges.filterMap Exchange.request).map RequestRecord.names).countP fun names => p names.2.1 names.2.2 := by
    induction exchanges with
    | nil => rfl
    | cons exchange rest ih =>
        obtain ⟨head, tail⟩ := List.forall_mem_cons.1 without
        rw [List.countP_cons, ih tail]
        cases asked : exchange.request with
        | none =>
            obtain ⟨method, toolName⟩ := head asked
            simp [List.filterMap_cons_none asked, method, toolName, unnamed]
        | some request =>
            obtain ⟨-, -, method, toolName⟩ := request_fields asked
            simp [List.filterMap_cons_some asked, List.countP_cons, method, toolName, RequestRecord.names]
  rw [counted _ fun exchange member => correlate_unnamed codec messages member, exchanges_names increasing,
    List.countP_map]
  rfl

/-- An exchange matches a name exactly as a request message with its number does. -/
theorem exists_named_iff (increasing : StoredMessage.Increasing messages) (name : String) (seq : Nat) :
    (∃ exchange ∈ (correlate codec messages).exchanges, nameMatches exchange name = true ∧ exchange.sortKey = seq) ↔
      ∃ request ∈ requestsOf messages, Named request name ∧ request.seq = seq := by
  constructor
  · rintro ⟨exchange, member, matched, rfl⟩
    cases asked : exchange.request with
    | none =>
        obtain ⟨method, toolName⟩ := correlate_unnamed codec messages member asked
        simp [nameMatches, method, toolName] at matched
    | some record =>
        obtain ⟨-, -, method, toolName⟩ := request_fields asked
        have listed : record.names ∈ (requestsOf messages).map namesOf :=
          exchanges_names increasing ▸ List.mem_map_of_mem (List.mem_filterMap.2 ⟨exchange, member, asked⟩)
        obtain ⟨request, inside, same⟩ := List.mem_map.1 listed
        simp only [namesOf, RequestRecord.names, Prod.mk.injEq] at same
        obtain ⟨seq, method', toolName'⟩ := same
        refine ⟨request, inside, ?_, ?_⟩
        · simpa [Named, nameMatches, method, toolName, method', toolName'] using matched
        · rw [sortKey_of_request asked, seq]
  · rintro ⟨request, inside, named, rfl⟩
    have listed : namesOf request ∈ ((correlate codec messages).exchanges.filterMap Exchange.request).map
        RequestRecord.names := exchanges_names increasing ▸ List.mem_map_of_mem inside
    obtain ⟨record, recorded, same⟩ := List.mem_map.1 listed
    obtain ⟨exchange, member, asked⟩ := List.mem_filterMap.1 recorded
    obtain ⟨-, -, method, toolName⟩ := request_fields asked
    simp only [namesOf, RequestRecord.names, Prod.mk.injEq] at same
    obtain ⟨seq, method', toolName'⟩ := same
    refine ⟨exchange, member, ?_, ?_⟩
    · simpa [Named, nameMatches, method, toolName, method', toolName'] using named
    · rw [sortKey_of_request asked, seq]

theorem request_of_named {exchange : Exchange} (member : exchange ∈ (correlate codec messages).exchanges) {name : String}
    (matched : nameMatches exchange name = true) : ∃ record, exchange.request = some record := by
  cases asked : exchange.request with
  | some record => exact ⟨record, rfl⟩
  | none =>
      obtain ⟨method, toolName⟩ := correlate_unnamed codec messages member asked
      simp [nameMatches, method, toolName] at matched

/-- Of two named exchanges, the one in front has the smaller number. -/
theorem sortKey_lt_of_named (increasing : StoredMessage.Increasing messages) {i j : Nat} (before : i < j)
    {a b : Exchange} (first : (correlate codec messages).exchanges[i]? = some a)
    (second : (correlate codec messages).exchanges[j]? = some b) {name other : String}
    (left : nameMatches a name = true) (right : nameMatches b other = true) : a.sortKey < b.sortKey := by
  obtain ⟨record, asked⟩ := request_of_named (List.mem_of_getElem? first) left
  obtain ⟨record', asked'⟩ := request_of_named (List.mem_of_getElem? second) right
  have ordered := requestRecords_increasing increasing
  rw [← @correlate_requestRecords codec messages increasing, List.pairwise_filterMap, List.pairwise_iff_getElem] at ordered
  obtain ⟨inside, rfl⟩ := List.getElem?_eq_some_iff.1 first
  obtain ⟨inside', rfl⟩ := List.getElem?_eq_some_iff.1 second
  rw [sortKey_of_request asked, sortKey_of_request asked']
  exact ordered i j inside inside' before record asked record' asked'

theorem sortKey_le_of_le {i j : Nat} (le : i ≤ j) {a b : Exchange}
    (first : (correlate codec messages).exchanges[i]? = some a)
    (second : (correlate codec messages).exchanges[j]? = some b) : a.sortKey ≤ b.sortKey := by
  obtain ⟨inside, rfl⟩ := List.getElem?_eq_some_iff.1 first
  obtain ⟨inside', rfl⟩ := List.getElem?_eq_some_iff.1 second
  rcases Nat.lt_or_eq_of_le le with less | rfl
  · exact List.pairwise_iff_getElem.1 (correlate_sorted codec messages) i j inside inside' less
  · exact Nat.le_refl _

/-- A position that matches a name is that of a request message which does. -/
theorem exists_position_iff (increasing : StoredMessage.Increasing messages) (name : String) (seq : Nat) :
    (∃ index ∈ positionsOf (correlate codec messages).exchanges name, ∃ exchange,
        (correlate codec messages).exchanges[index]? = some exchange ∧ exchange.sortKey = seq) ↔
      ∃ request ∈ requestsOf messages, Named request name ∧ request.seq = seq := by
  rw [← @exists_named_iff codec messages increasing]
  constructor
  · rintro ⟨index, listed, exchange, found, same⟩
    obtain ⟨other, found', matched⟩ := mem_positionsOf.1 listed
    obtain rfl := Option.some.inj (found.symm.trans found')
    exact ⟨exchange, List.mem_of_getElem? found, matched, same⟩
  · rintro ⟨exchange, member, matched, same⟩
    obtain ⟨index, found⟩ := List.mem_iff_getElem?.1 member
    exact ⟨index, mem_positionsOf.2 ⟨exchange, found, matched⟩, exchange, found, same⟩

end Correspondence

/-! ## Verdicts -/

theorem checkBounds_passed (description : String) (count : Nat) (min max : Option Nat) :
    (checkBounds description count min max).passed = true ↔ WithinBounds count min max := by
  unfold checkBounds WithinBounds
  dsimp only
  split_ifs with few
  · simp only [false_iff, not_and]
    omega
  · cases max with
    | none => simp; omega
    | some most =>
        dsimp only
        split_ifs with many
        · simp; omega
        · simp; omega

/-- An order passes when something matches `after`, and none that does comes before all that match `before`. -/
theorem callOrder_passed (exchanges : List Exchange) (before after : String) :
    (callOrder exchanges before after).passed = true ↔ positionsOf exchanges after ≠ [] ∧
      ∀ index ∈ positionsOf exchanges after, ∃ first ∈ positionsOf exchanges before, first ≤ index := by
  unfold callOrder
  dsimp only
  cases occurs : positionsOf exchanges after with
  | nil => simp
  | cons index rest =>
      rw [if_neg (by simp), ← occurs]
      cases found : exchanges.findIdx? fun exchange => nameMatches exchange before with
      | none =>
          -- Without any match of `before` there is no position to follow.
          have none : positionsOf exchanges before = [] := by
            refine List.eq_nil_iff_forall_not_mem.2 fun index listed => ?_
            obtain ⟨exchange, at', matched⟩ := mem_positionsOf.1 listed
            have unmatched := List.findIdx?_eq_none_iff.1 found exchange (List.mem_of_getElem? at')
            rw [matched] at unmatched
            cases unmatched
          refine iff_of_false (by simp) fun both => ?_
          obtain ⟨first, listed, -⟩ := both.2 index (by simp [occurs])
          rw [none] at listed
          cases listed
      | some beforeIdx =>
          obtain ⟨inside, matched, least⟩ := List.findIdx?_eq_some_iff_getElem.1 found
          have first : ∀ index, (∃ position ∈ positionsOf exchanges before, position ≤ index) ↔ beforeIdx ≤ index := by
            intro index
            constructor
            · rintro ⟨position, listed, le⟩
              obtain ⟨exchange, at', holds⟩ := mem_positionsOf.1 listed
              obtain ⟨within, rfl⟩ := List.getElem?_eq_some_iff.1 at'
              by_contra less
              exact least position (by omega) holds
            · exact fun le => ⟨beforeIdx, mem_positionsOf.2 ⟨_, List.getElem?_eq_getElem inside, matched⟩, le⟩
          simp only [first]
          split_ifs with violating
          · obtain ⟨position, listed, less⟩ := List.any_eq_true.1 violating
            refine iff_of_false (by simp) fun both => ?_
            have le := both.2 position listed
            have less : position < beforeIdx := of_decide_eq_true less
            omega
          · refine iff_of_true rfl ⟨by simp [occurs], fun position listed => ?_⟩
            by_contra less
            exact violating (List.any_eq_true.2 ⟨position, listed, by simpa using less⟩)

section Verdicts
variable {codec : Codec} {messages : List StoredMessage}

/-- The verdict over the request messages: a request that matches both names follows itself. -/
theorem callOrder_passed_iff (increasing : StoredMessage.Increasing messages) (before after : String) :
    (callOrder (correlate codec messages).exchanges before after).passed = true ↔
      (∃ request ∈ requestsOf messages, Named request after) ∧
        ∀ request ∈ requestsOf messages, Named request after →
          ∃ earlier ∈ requestsOf messages, earlier.seq ≤ request.seq ∧ Named earlier before := by
  rw [callOrder_passed]
  constructor
  · rintro ⟨occurs, follows⟩
    refine ⟨?_, fun request inside named => ?_⟩
    · obtain ⟨index, listed⟩ := List.exists_mem_of_ne_nil _ occurs
      obtain ⟨exchange, found, -⟩ := mem_positionsOf.1 listed
      obtain ⟨request, inside, named, -⟩ :=
        (exists_position_iff increasing after exchange.sortKey).1 ⟨index, listed, exchange, found, rfl⟩
      exact ⟨request, inside, named⟩
    · obtain ⟨index, listed, exchange, found, same⟩ :=
        (@exists_position_iff codec _ increasing after request.seq).2 ⟨request, inside, named, rfl⟩
      obtain ⟨first, listed', le⟩ := follows index listed
      obtain ⟨other, found', -⟩ := mem_positionsOf.1 listed'
      obtain ⟨earlier, inside', named', seq⟩ :=
        (exists_position_iff increasing before other.sortKey).1 ⟨first, listed', other, found', rfl⟩
      exact ⟨earlier, inside', by rw [seq, ← same]; exact sortKey_le_of_le le found' found, named'⟩
  · rintro ⟨⟨request, inside, named⟩, follows⟩
    refine ⟨fun empty => ?_, fun index listed => ?_⟩
    · obtain ⟨index, listed, -⟩ :=
        (@exists_position_iff codec _ increasing after request.seq).2 ⟨request, inside, named, rfl⟩
      rw [empty] at listed
      cases listed
    · obtain ⟨exchange, found, matched⟩ := mem_positionsOf.1 listed
      obtain ⟨request, inside, named, seq⟩ :=
        (exists_position_iff increasing after exchange.sortKey).1 ⟨index, listed, exchange, found, rfl⟩
      obtain ⟨earlier, inside', below, named'⟩ := follows request inside named
      obtain ⟨first, listed', other, found', seq'⟩ :=
        (@exists_position_iff codec _ increasing before earlier.seq).2 ⟨earlier, inside', named', rfl⟩
      refine ⟨first, listed', ?_⟩
      by_contra behind
      obtain ⟨other', found'', matched'⟩ := mem_positionsOf.1 listed'
      obtain rfl := Option.some.inj (found'.symm.trans found'')
      have less := sortKey_lt_of_named increasing (by omega) found found' matched matched'
      omega

/-- Letting a request follow itself makes no difference unless it is the first that matches either name. -/
theorem follows_iff (increasing : StoredMessage.Increasing messages) (before after : String) :
    (((∃ request ∈ requestsOf messages, Named request after) ∧
        ∀ request ∈ requestsOf messages, Named request after →
          ∃ earlier ∈ requestsOf messages, earlier.seq ≤ request.seq ∧ Named earlier before) ↔
      FollowsBefore messages before after) ↔ FirstMatchesOne messages before after := by
  have unique {a b : StoredMessage} (first : a ∈ requestsOf messages) (second : b ∈ requestsOf messages)
      (same : a.seq = b.seq) : a = b := by
    have distinct : (messages.map StoredMessage.seq).Nodup :=
      List.pairwise_map.2 (List.Pairwise.imp Nat.ne_of_lt increasing)
    exact List.inj_on_of_nodup_map distinct (List.mem_of_mem_filter first) (List.mem_of_mem_filter second) same
  constructor
  · intro agree request inside both both'
    by_contra alone
    push Not at alone
    -- Nothing before the request matches either name, so that it is allowed to follow itself.
    have least (other : StoredMessage) (listed : other ∈ requestsOf messages) (named : Named other after) :
        request.seq ≤ other.seq := by
      by_contra less
      exact (alone other listed (by omega)).2 named
    obtain ⟨-, strict⟩ := agree.1 ⟨⟨request, inside, both'⟩, fun other listed named =>
      ⟨request, inside, least other listed named, both⟩⟩
    obtain ⟨earlier, listed, less, named⟩ := strict request inside both'
    exact (alone earlier listed less).1 named
  · intro distinguishes
    constructor
    · rintro ⟨occurs, follows⟩
      refine ⟨occurs, fun request inside named => ?_⟩
      obtain ⟨earlier, listed, le, matched⟩ := follows request inside named
      rcases Nat.lt_or_eq_of_le le with less | same
      · exact ⟨earlier, listed, less, matched⟩
      · obtain rfl := unique listed inside same
        obtain ⟨first, listed', less, either⟩ := distinguishes earlier inside matched named
        rcases either with matched' | named'
        · exact ⟨first, listed', less, matched'⟩
        · obtain ⟨second, listed'', le', matched''⟩ := follows first listed' named'
          exact ⟨second, listed'', by omega, matched''⟩
    · rintro ⟨occurs, follows⟩
      refine ⟨occurs, fun request inside named => ?_⟩
      obtain ⟨earlier, listed, less, matched⟩ := follows request inside named
      exact ⟨earlier, listed, Nat.le_of_lt less, matched⟩

end Verdicts

/-- Counts are those of the requests, and an order is met as meant exactly when no request that matches both
names is the first to match either. -/
theorem passes_counts_and_order_iff (codec : Codec) (sha256Hex debug : String → String) {messages : List StoredMessage}
    (increasing : StoredMessage.Increasing messages) :
    (∀ tool min max, passes codec sha256Hex debug messages (.toolCalled tool min max) = true ↔
      WithinBounds ((requestsOf messages).countP fun request => request.toolName == some tool) min max) ∧
    (∀ method min max, passes codec sha256Hex debug messages (.methodCalled method min max) = true ↔
      WithinBounds ((requestsOf messages).countP fun request => request.method == some method) min max) ∧
    ∀ before after, (passes codec sha256Hex debug messages (.callOrder before after) = true ↔
      FollowsBefore messages before after) ↔ FirstMatchesOne messages before after := by
  simp only [passes_eq, evaluateOne]
  refine ⟨fun tool min max => ?_, fun method min max => ?_, fun before after => ?_⟩
  · rw [checkBounds_passed, countP_exchanges increasing (fun _ toolName => toolName == some tool) rfl]
  · rw [checkBounds_passed, countP_exchanges increasing (fun method' _ => method' == some method) rfl]
  · rw [callOrder_passed_iff increasing, follows_iff increasing]

theorem echoed_increasing (result : List (String × Value)) : StoredMessage.Increasing (echoed result) := by
  simp [StoredMessage.Increasing, echoed, StoredMessage.ofMessage]

theorem passes_counts_and_order_echoed :
    (passes Compact.codec id id (echoed []) (.toolCalled "echo" none (some 1)) = true ↔
      WithinBounds ((requestsOf (echoed [])).countP fun request => request.toolName == some "echo") none (some 1)) ∧
    ((passes Compact.codec id id (echoed []) (.callOrder "tools/list" "echo") = true ↔
      FollowsBefore (echoed []) "tools/list" "echo") ↔ FirstMatchesOne (echoed []) "tools/list" "echo") := by
  obtain ⟨tools, -, orders⟩ := passes_counts_and_order_iff Compact.codec id id (echoed_increasing [])
  exact ⟨tools "echo" none (some 1), orders "tools/list" "echo"⟩

/-- One call of a tool is taken to follow itself, since it matches the method and the tool. -/
theorem call_follows_itself :
    ¬ ∀ (codec : Codec) (sha256Hex debug : String → String) (messages : List StoredMessage),
      StoredMessage.Increasing messages →
      (∀ tool min max, passes codec sha256Hex debug messages (.toolCalled tool min max) = true ↔
        WithinBounds ((requestsOf messages).countP fun request => request.toolName == some tool) min max) ∧
      (∀ method min max, passes codec sha256Hex debug messages (.methodCalled method min max) = true ↔
        WithinBounds ((requestsOf messages).countP fun request => request.method == some method) min max) ∧
      ∀ before after, passes codec sha256Hex debug messages (.callOrder before after) = true ↔
        FollowsBefore messages before after := by
  intro holds
  obtain ⟨-, -, orders⟩ := holds Compact.codec id id (echoed []) (echoed_increasing [])
  have passed : passes Compact.codec id id (echoed []) (.callOrder "tools/call" "echo") = true := by decide +kernel
  obtain ⟨⟨request, inside, named⟩, follows⟩ := (orders "tools/call" "echo").1 passed
  obtain ⟨earlier, listed, less, -⟩ := follows request inside named
  have only : ∀ message ∈ requestsOf (echoed []), message.seq = 0 := by decide +kernel
  rw [only request inside] at less
  cases less

end McpTracer.Model
