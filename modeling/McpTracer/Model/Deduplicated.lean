import McpTracer.Model.MergedHealth
import McpTracer.Model.Pairing
import McpTracer.Storage.CanonicalJson

/-! What deduplication removes and what it keeps.

Of the calls that can be told apart the first one is kept, across all sources.
A response goes with the request that it answers in its own source, where
cancellations are not looked at.
-/

set_option autoImplicit false

namespace McpTracer.Model
open McpTracer.Foundation McpTracer.Json McpTracer.Protocol McpTracer.Redact McpTracer.Storage

/-! ## Calls -/

/-- What two requests of one call have in common. -/
structure RepeatableCall where
  method : String
  toolName : Option String
  params : Value

/-- The call that a request makes, if its params can be read and nothing in them is redacted. -/
def callOf (codec : Codec) (message : StoredMessage) : Option RepeatableCall := do
  let method ← message.method
  let payload ← codec.fromStr message.payload
  let fields ← payload.asObject
  let params := (fields.lookup "params").getD .null
  if containsRedactedValue params then none else some ⟨method, message.toolName, params⟩

def IsClientRequest (message : StoredMessage) : Prop := message.direction = "c2s" ∧ message.messageKind = "request"

instance (message : StoredMessage) : Decidable (IsClientRequest message) := inferInstanceAs (Decidable (_ ∧ _))

def IsServerResponse (message : StoredMessage) : Prop := message.direction = "s2c" ∧ message.messageKind = "response"

instance (message : StoredMessage) : Decidable (IsServerResponse message) := inferInstanceAs (Decidable (_ ∧ _))

def clientCall (codec : Codec) (message : StoredMessage) : Option RepeatableCall :=
  if IsClientRequest message then callOf codec message else none

theorem clientCall_eq_some_iff {codec : Codec} {message : StoredMessage} {call : RepeatableCall} :
    clientCall codec message = some call ↔ IsClientRequest message ∧ callOf codec message = some call := by
  unfold clientCall
  split_ifs with request
  · simp [request]
  · simp [request]

/-! ## Keys -/

namespace Deduplicating

def keyOf (codec : Codec) (call : RepeatableCall) : DeduplicationKey :=
  ⟨call.method, call.toolName, canonicalJson codec call.params⟩

theorem deduplicationKey_eq (codec : Codec) (message : StoredMessage) :
    deduplicationKey codec message = (callOf codec message).map (keyOf codec) := by
  unfold deduplicationKey callOf
  cases message.method with
  | none => rfl
  | some method =>
      cases codec.fromStr message.payload with
      | none => rfl
      | some payload =>
          cases fields : payload.asObject with
          | none => simp [fields]
          | some fields =>
              simp only [fields, Option.bind_eq_bind, Option.bind_some]
              split_ifs <;> rfl

/-- The params of a call are a decoded tree. -/
theorem callOf_wellFormed {codec : Codec} {message : StoredMessage} {call : RepeatableCall}
    (made : callOf codec message = some call) : call.params.wellFormed = true := by
  simp only [callOf, Option.bind_eq_bind, Option.bind_eq_some_iff, Value.asObject_eq_some_iff] at made
  obtain ⟨method, -, payload, parsed, fields, rfl, chosen⟩ := made
  split_ifs at chosen
  obtain rfl := Option.some.inj chosen
  have formed := codec.fromStr_wellFormed parsed
  cases found : fields.lookup "params" with
  | none => simp [Value.wellFormed]
  | some params => simpa using (Value.wellFormed_object formed).2 _ (mem_of_lookup found)

/-- Calls with one key are the same call. -/
theorem keyOf_injective {codec : Codec} (leaves : PrintsLeaves codec) {a b : RepeatableCall}
    (left : a.params.wellFormed = true) (right : b.params.wellFormed = true) (same : keyOf codec a = keyOf codec b) :
    a = b := by
  obtain ⟨method, toolName, params⟩ := a
  obtain ⟨method', toolName', params'⟩ := b
  simp only [keyOf, DeduplicationKey.mk.injEq] at same
  obtain ⟨rfl, rfl, texts⟩ := same
  obtain rfl := canonicalJson_injective leaves left right texts
  rfl

def clientKey (codec : Codec) (message : StoredMessage) : Option DeduplicationKey :=
  if IsClientRequest message then deduplicationKey codec message else none

theorem clientKey_eq (codec : Codec) (message : StoredMessage) :
    clientKey codec message = (clientCall codec message).map (keyOf codec) := by
  unfold clientKey clientCall
  split_ifs
  · exact deduplicationKey_eq codec message
  · rfl

/-- Two messages have one key exactly when they make the same call. -/
theorem clientKey_eq_iff {codec : Codec} (leaves : PrintsLeaves codec) {message : StoredMessage} {call : RepeatableCall}
    (formed : call.params.wellFormed = true) :
    clientKey codec message = some (keyOf codec call) ↔ clientCall codec message = some call := by
  rw [clientKey_eq, Option.map_eq_some_iff]
  constructor
  · rintro ⟨other, made, same⟩
    obtain rfl := keyOf_injective leaves (callOf_wellFormed (clientCall_eq_some_iff.1 made).2) formed same
    exact made
  · intro made
    exact ⟨call, made, rfl⟩

/-! ## One pass -/

section Pass
variable {codec : Codec} {state : Deduplication} {message : StoredMessage} {messages : List StoredMessage}

theorem survivors_append (before after : List StoredMessage) : survivors codec state (before ++ after) =
    survivors codec state before ++ survivors codec (before.foldl (Deduplication.step codec) state) after := by
  induction before generalizing state with
  | nil => rfl
  | cons message rest ih =>
      simp only [List.cons_append, survivors, List.foldl_cons]
      split_ifs
      · exact ih
      · rw [ih, List.cons_append]

/-- A message goes when the pass takes it out at its place. -/
theorem not_mem_survivors_iff {before after : List StoredMessage} (distinct : (before ++ message :: after).Nodup) :
    message ∉ survivors codec state (before ++ message :: after) ↔
      removes codec (before.foldl (Deduplication.step codec) state) message = true := by
  obtain ⟨-, ownTail, apart⟩ := List.nodup_append.1 distinct
  have notBefore : message ∉ survivors codec state before :=
    fun member => apart _ ((survivors_sublist before).subset member) _ List.mem_cons_self rfl
  have notAfter (later : Deduplication) : message ∉ survivors codec later after :=
    fun member => (List.nodup_cons.1 ownTail).1 ((survivors_sublist after).subset member)
  rw [survivors_append, survivors]
  split_ifs with removed
  · simp [removed, notBefore, notAfter]
  · simp [removed]

/-- What was kept up to a place is what is kept in the end and stands before it. -/
theorem mem_survivors_before {before after : List StoredMessage} (distinct : (before ++ after).Nodup)
    {first : StoredMessage} : first ∈ survivors codec state before ↔
      first ∈ survivors codec state (before ++ after) ∧ first ∈ before := by
  rw [survivors_append, List.mem_append]
  constructor
  · intro kept
    exact ⟨.inl kept, (survivors_sublist before).subset kept⟩
  · rintro ⟨kept | kept, here⟩
    · exact kept
    · exact absurd rfl ((List.nodup_append.1 distinct).2.2 _ here _ ((survivors_sublist after).subset kept))

/-! ### Calls that were seen -/

theorem step_of_request (request : IsClientRequest message) : state.step codec message = state.request codec message :=
  if_pos request

/-- Only a request of the client adds to the calls that were seen and removed. -/
theorem step_of_not_request (other : ¬ IsClientRequest message) :
    (state.step codec message).seenCalls = state.seenCalls ∧ (state.step codec message).removedCalls = state.removedCalls := by
  rw [Deduplication.step, if_neg (show ¬ (message.direction = "c2s" ∧ message.messageKind = "request") from other)]
  split_ifs
  · unfold Deduplication.response
    split <;> exact ⟨rfl, rfl⟩
  · exact ⟨rfl, rfl⟩

theorem clientKey_of_not_request (other : ¬ IsClientRequest message) : clientKey codec message = none := if_neg other

theorem removes_of_request (request : IsClientRequest message) :
    removes codec state message = (clientKey codec message).any fun key => state.seenCalls.contains key := by
  rw [clientKey, if_pos request]
  exact if_pos request

theorem step_seenCalls : (state.step codec message).seenCalls = (clientKey codec message).toList ++ state.seenCalls := by
  by_cases request : IsClientRequest message
  · rw [step_of_request request, clientKey, if_pos request]
    rfl
  · rw [(step_of_not_request request).1, clientKey_of_not_request request]
    rfl

/-- A key has been seen when it was seen before or one of its calls is kept. -/
theorem mem_foldl_seenCalls {key : DeduplicationKey} :
    key ∈ (messages.foldl (Deduplication.step codec) state).seenCalls ↔
      key ∈ state.seenCalls ∨ key ∈ (survivors codec state messages).filterMap (clientKey codec) := by
  induction messages generalizing state with
  | nil => simp [survivors]
  | cons message rest ih =>
      rw [List.foldl_cons, ih, step_seenCalls, List.mem_append, Option.mem_toList, survivors]
      by_cases removed : removes codec state message = true
      · -- What a removed call adds to the keys was there.
        have known : clientKey codec message = some key → key ∈ state.seenCalls := by
          intro own
          by_cases request : IsClientRequest message
          · rw [removes_of_request request, own] at removed
            simpa using removed
          · rw [clientKey_of_not_request request] at own
            cases own
        rw [if_pos removed]
        tauto
      · rw [if_neg removed, List.mem_filterMap, List.mem_filterMap]
        simp only [List.mem_cons, exists_eq_or_imp]
        tauto

/-- The calls that are kept are new, each of them once. -/
theorem nodup_survivors : ((survivors codec state messages).filterMap (clientKey codec)).Nodup ∧
    ∀ key ∈ (survivors codec state messages).filterMap (clientKey codec), key ∉ state.seenCalls := by
  induction messages generalizing state with
  | nil => simp [survivors]
  | cons message rest ih =>
      obtain ⟨nodup, fresh⟩ := @ih (state.step codec message)
      simp only [step_seenCalls, List.mem_append, Option.mem_toList, not_or] at fresh
      rw [survivors]
      split_ifs with removed
      · exact ⟨nodup, fun key member => (fresh key member).2⟩
      · cases own : clientKey codec message with
        | none =>
            rw [List.filterMap_cons_none own]
            exact ⟨nodup, fun key member => (fresh key member).2⟩
        | some key =>
            have request : IsClientRequest message := by
              by_contra other
              rw [clientKey_of_not_request other] at own
              cases own
            rw [removes_of_request request, own] at removed
            rw [List.filterMap_cons_some own]
            refine ⟨List.nodup_cons.2 ⟨fun member => (fresh key member).1 own, nodup⟩, ?_⟩
            refine List.forall_mem_cons.2 ⟨by simpa using removed, fun other member => (fresh other member).2⟩

/-- Each request that is not kept is counted. -/
theorem foldl_removedCalls : (messages.foldl (Deduplication.step codec) state).removedCalls +
    (survivors codec state messages).countP (fun message => IsClientRequest message) =
      state.removedCalls + messages.countP fun message => IsClientRequest message := by
  induction messages generalizing state with
  | nil => rfl
  | cons message rest ih =>
      have later := @ih (state.step codec message)
      rw [List.foldl_cons, survivors, List.countP_cons]
      by_cases request : IsClientRequest message
      · have counted : (state.step codec message).removedCalls =
            if removes codec state message = true then state.removedCalls + 1 else state.removedCalls := by
          rw [step_of_request request, removes_of_request request, clientKey, if_pos request]
          rfl
        rw [counted] at later
        by_cases removed : removes codec state message = true
        · rw [if_pos removed] at later
          rw [if_pos removed, if_pos (by simpa using request)]
          omega
        · rw [if_neg removed] at later
          rw [if_neg removed, List.countP_cons, if_pos (by simpa using request)]
          omega
      · rw [(step_of_not_request request).2] at later
        have uncounted : (if decide (IsClientRequest message) = true then 1 else 0) = 0 := if_neg (by simpa using request)
        rw [uncounted, Nat.add_zero, ← later]
        split_ifs
        · rfl
        · rw [List.countP_cons, uncounted, Nat.add_zero]

/-! ### Requests that are open -/

/-- The last request of the client with this id has not met a response of the server. -/
def LeftOpen (between : List StoredMessage) (id : String) : Prop :=
  ∀ message ∈ between, ¬ IsRequest message .clientToServer id ∧ ¬ IsResponse message .serverToClient id

theorem step_request_pending {id : String} (asks : IsRequest message .clientToServer id) :
    (state.step codec message).pendingRequests id = some (removes codec state message) := by
  have request : IsClientRequest message := ⟨asks.1, asks.2.1⟩
  rw [step_of_request request, Deduplication.request, asks.2.2]
  exact (Table.insert_same _ _ _).trans (congrArg some (if_pos request).symm)

theorem step_response_pending {id : String} (answers : IsResponse message .serverToClient id) :
    (state.step codec message).pendingRequests id = none := by
  have other : ¬ (message.direction = "c2s" ∧ message.messageKind = "request") := by
    rintro ⟨-, kind⟩
    rw [answers.2.1] at kind
    exact absurd kind (by decide)
  rw [Deduplication.step, if_neg other, if_pos ⟨answers.1, answers.2.1⟩, Deduplication.response, answers.2.2]
  exact Table.erase_same _ _

/-- A flag is pending when the last message under the id is a request, and tells whether that request was taken out. -/
theorem foldl_pendingRequests {seen : List DeduplicationKey} {id : String} {flag : Bool} :
    (messages.foldl (Deduplication.step codec) (.start seen)).pendingRequests id = some flag ↔
      ∃ before request between, messages = before ++ request :: between ∧ IsRequest request .clientToServer id ∧
        LeftOpen between id ∧
        removes codec (before.foldl (Deduplication.step codec) (.start seen)) request = flag := by
  induction messages using List.reverseRecOn with
  | nil => simp [Deduplication.start, Table.empty]
  | append_singleton messages last ih =>
      rw [List.foldl_append, List.foldl_cons, List.foldl_nil]
      by_cases asks : IsRequest last .clientToServer id
      · rw [step_request_pending asks]
        constructor
        · intro found
          exact ⟨messages, last, [], rfl, asks, fun _ none => absurd none List.not_mem_nil, Option.some.inj found⟩
        · rintro ⟨before, request, between, shape, -, calm, taken⟩
          rcases concat_place shape with ⟨rfl, rfl, -⟩ | ⟨middle, rfl, -⟩
          · rw [taken]
          · exact absurd asks (calm last (by simp)).1
      by_cases answers : IsResponse last .serverToClient id
      · rw [step_response_pending answers]
        constructor
        · intro found
          cases found
        · rintro ⟨before, request, between, shape, asked, calm, -⟩
          rcases concat_place shape with ⟨rfl, rfl, -⟩ | ⟨middle, rfl, -⟩
          · exact absurd asked asks
          · exact absurd answers (calm last (by simp)).2
      · rw [step_pendingRequests_other (fun side kind own => asks ⟨side, kind, own⟩)
          (fun side kind own => answers ⟨side, kind, own⟩), ih]
        constructor
        · rintro ⟨before, request, between, rfl, asked, calm, taken⟩
          refine ⟨before, request, between ++ [last], by simp, asked, ?_, taken⟩
          exact List.forall_mem_append.2 ⟨calm, List.forall_mem_singleton.2 ⟨asks, answers⟩⟩
        · rintro ⟨before, request, between, shape, asked, calm, taken⟩
          rcases concat_place shape with ⟨rfl, rfl, -⟩ | ⟨middle, rfl, rfl⟩
          · exact absurd asked asks
          · exact ⟨before, request, middle, rfl, asked, fun message member => calm message (by simp [member]), taken⟩

theorem removes_of_response (response : IsServerResponse message) : removes codec state message = true ↔
    ∃ id, message.rpcId = some id ∧ state.pendingRequests id = some true := by
  have other : ¬ (message.direction = "c2s" ∧ message.messageKind = "request") := by
    rintro ⟨side, -⟩
    rw [response.1] at side
    exact absurd side (by decide)
  unfold IsServerResponse at response
  rw [removes, if_neg other, if_pos response]
  cases message.rpcId with
  | none => simp
  | some id => cases pending : state.pendingRequests id <;> simp [pending]

theorem kind_of_removes (removed : removes codec state message = true) :
    IsClientRequest message ∨ IsServerResponse message := by
  unfold IsClientRequest IsServerResponse
  by_contra other
  obtain ⟨request, response⟩ := not_or.1 other
  rw [removes, if_neg request, if_neg response] at removed
  cases removed

end Pass

/-! ## One source -/

/-- What is kept of a source, with the messages that are kept of the sources before it. -/
structure SourceDeduplicated (codec : Codec) (earlier messages own : List StoredMessage) : Prop where
  sublist : List.Sublist own messages
  kinds : ∀ message ∈ messages, message ∉ own → IsClientRequest message ∨ IsServerResponse message
  /-- A request goes exactly when an earlier one of the same call is kept. -/
  requests : ∀ before message after, messages = before ++ message :: after → IsClientRequest message →
    (message ∉ own ↔ ∃ call first, callOf codec message = some call ∧ (first ∈ earlier ∨ first ∈ own ∧ first ∈ before) ∧
      IsClientRequest first ∧ callOf codec first = some call)
  /-- A response goes exactly when the last request with its id is open and goes. -/
  responses : ∀ before message after, messages = before ++ message :: after → IsServerResponse message →
    (message ∉ own ↔ ∃ asked request between id, before = asked ++ request :: between ∧
      IsRequest request .clientToServer id ∧ LeftOpen between id ∧ message.rpcId = some id ∧ request ∉ own)

section Source
variable {codec : Codec} {messages earlier : List StoredMessage} {seen : List DeduplicationKey}

/-- The keys that were seen are those of the calls that are kept. -/
def Covers (codec : Codec) (earlier : List StoredMessage) (seen : List DeduplicationKey) : Prop :=
  ∀ key, key ∈ seen ↔ key ∈ earlier.filterMap (clientKey codec)

theorem covers_pass (messages : List StoredMessage) (covers : Covers codec earlier seen) :
    Covers codec (earlier ++ survivors codec (.start seen) messages)
    (messages.foldl (Deduplication.step codec) (.start seen)).seenCalls := by
  intro key
  rw [mem_foldl_seenCalls, List.filterMap_append, List.mem_append]
  exact or_congr_left (covers key)

/-- A request is taken out exactly when an earlier one of its call is kept. -/
theorem removes_request_iff (leaves : PrintsLeaves codec) (covers : Covers codec earlier seen)
    {before after : List StoredMessage} {message : StoredMessage} (distinct : (before ++ message :: after).Nodup)
    (request : IsClientRequest message) :
    removes codec (before.foldl (Deduplication.step codec) (.start seen)) message = true ↔
      ∃ call first, callOf codec message = some call ∧
        (first ∈ earlier ∨ first ∈ survivors codec (.start seen) (before ++ message :: after) ∧ first ∈ before) ∧
        IsClientRequest first ∧ callOf codec first = some call := by
  have known (key : DeduplicationKey) : key ∈ (before.foldl (Deduplication.step codec) (.start seen)).seenCalls ↔
      ∃ first, (first ∈ earlier ∨ first ∈ survivors codec (.start seen) (before ++ message :: after) ∧ first ∈ before) ∧
        clientKey codec first = some key := by
    rw [covers_pass _ covers key, List.mem_filterMap]
    simp only [List.mem_append, mem_survivors_before distinct]
  rw [removes_of_request request, Option.any_eq_true]
  constructor
  · rintro ⟨key, own, repeated⟩
    obtain ⟨first, place, same⟩ := (known key).1 (by simpa using repeated)
    rw [clientKey_eq, Option.map_eq_some_iff] at own
    obtain ⟨call, made, rfl⟩ := own
    have formed := callOf_wellFormed (clientCall_eq_some_iff.1 made).2
    obtain ⟨asked, repeats⟩ := clientCall_eq_some_iff.1 ((clientKey_eq_iff leaves formed).1 same)
    exact ⟨call, first, (clientCall_eq_some_iff.1 made).2, place, asked, repeats⟩
  · rintro ⟨call, first, made, place, asked, repeats⟩
    have formed := callOf_wellFormed made
    refine ⟨keyOf codec call, (clientKey_eq_iff leaves formed).2 (clientCall_eq_some_iff.2 ⟨request, made⟩), ?_⟩
    have seenBefore := (known (keyOf codec call)).2
      ⟨first, place, (clientKey_eq_iff leaves formed).2 (clientCall_eq_some_iff.2 ⟨asked, repeats⟩)⟩
    simpa using seenBefore

/-- The survivors of a source are what the specification asks for. -/
theorem sourceDeduplicated (leaves : PrintsLeaves codec) (covers : Covers codec earlier seen) (distinct : messages.Nodup) :
    SourceDeduplicated codec earlier messages (survivors codec (.start seen) messages) := by
  constructor
  case sublist => exact survivors_sublist messages
  case kinds =>
    intro message member removed
    obtain ⟨before, after, rfl⟩ := List.append_of_mem member
    exact kind_of_removes ((not_mem_survivors_iff distinct).1 removed)
  case requests =>
    rintro before message after rfl request
    rw [not_mem_survivors_iff distinct]
    exact removes_request_iff leaves covers distinct request
  case responses =>
    rintro before message after rfl response
    rw [not_mem_survivors_iff distinct, removes_of_response response]
    simp only [foldl_pendingRequests]
    constructor
    · rintro ⟨id, own, asked, request, between, rfl, requests, calm, removed⟩
      refine ⟨asked, request, between, id, rfl, requests, calm, own, ?_⟩
      rw [List.append_assoc, List.cons_append] at distinct ⊢
      exact (not_mem_survivors_iff distinct).2 removed
    · rintro ⟨asked, request, between, id, rfl, requests, calm, own, removed⟩
      rw [List.append_assoc, List.cons_append] at distinct removed
      exact ⟨id, own, asked, request, between, rfl, requests, calm, (not_mem_survivors_iff distinct).1 removed⟩

end Source

/-! ## All sources -/

/-- What is kept of each source. -/
def keptSources (codec : Codec) : List DeduplicationKey → List (List StoredMessage) → List (List StoredMessage)
  | _, [] => []
  | seen, messages :: rest =>
    let pass := deduplicateSourceMessages codec seen messages
    pass.1 :: keptSources codec pass.2.1 rest

section Sources
variable {codec : Codec} {sources : List (List StoredMessage)} {earlier : List StoredMessage} {seen : List DeduplicationKey}

theorem length_keptSources : (keptSources codec seen sources).length = sources.length := by
  induction sources generalizing seen with
  | nil => rfl
  | cons messages rest ih => exact congrArg (· + 1) ih

theorem mergeMessages_fst : (mergeMessages codec true seen sources).1 = (keptSources codec seen sources).flatten := by
  induction sources generalizing seen with
  | nil => rfl
  | cons messages rest ih =>
      rw [mergeMessages, if_pos rfl, keptSources, List.flatten_cons]
      exact congrArg _ ih

theorem keptSources_sublist : List.Sublist (keptSources codec seen sources).flatten sources.flatten := by
  induction sources generalizing seen with
  | nil => exact List.Sublist.refl _
  | cons messages rest ih => exact List.Sublist.append List.filter_sublist ih

/-- The number of calls removed is the number of requests that are not kept. -/
theorem mergeMessages_snd (distinct : ∀ messages ∈ sources, messages.Pairwise fun a b => a.seq ≠ b.seq) :
    (mergeMessages codec true seen sources).2 +
        (keptSources codec seen sources).flatten.countP (fun message => IsClientRequest message) =
      sources.flatten.countP fun message => IsClientRequest message := by
  induction sources generalizing seen with
  | nil => rfl
  | cons messages rest ih =>
      obtain ⟨first, others⟩ := List.forall_mem_cons.1 distinct
      have own := @foldl_removedCalls codec (.start seen) messages
      have later := @ih (deduplicateSourceMessages codec seen messages).2.1 others
      rw [mergeMessages, if_pos rfl, keptSources, List.flatten_cons, List.flatten_cons, List.countP_append,
        List.countP_append, deduplicateSourceMessages_fst first, ← later]
      simp only [deduplicateSourceMessages, Deduplication.start] at own ⊢
      omega

theorem nodup_of_distinct {messages : List StoredMessage} (distinct : messages.Pairwise fun a b => a.seq ≠ b.seq) :
    messages.Nodup :=
  distinct.imp fun differ same => differ (congrArg StoredMessage.seq same)

theorem keptSources_deduplicated (leaves : PrintsLeaves codec) (covers : Covers codec earlier seen)
    (distinct : ∀ messages ∈ sources, messages.Pairwise fun a b => a.seq ≠ b.seq) {i : Nat}
    {messages own : List StoredMessage} (source : sources[i]? = some messages)
    (kept : (keptSources codec seen sources)[i]? = some own) :
    SourceDeduplicated codec (earlier ++ ((keptSources codec seen sources).take i).flatten) messages own := by
  induction sources generalizing seen earlier i with
  | nil => cases source
  | cons head rest ih =>
      obtain ⟨first, others⟩ := List.forall_mem_cons.1 distinct
      rw [keptSources, deduplicateSourceMessages_fst first] at kept ⊢
      cases i with
      | zero =>
          obtain rfl := Option.some.inj source
          obtain rfl := Option.some.inj kept
          rw [List.take_zero, List.flatten_nil, List.append_nil]
          exact sourceDeduplicated leaves covers (nodup_of_distinct first)
      | succ i =>
          rw [List.take_succ_cons, List.flatten_cons, ← List.append_assoc]
          exact ih (covers_pass head covers) others source kept

/-- No two of the calls that are kept are the same. -/
theorem nodup_keptSources (covers : Covers codec earlier seen)
    (distinct : ∀ messages ∈ sources, messages.Pairwise fun a b => a.seq ≠ b.seq) :
    ((keptSources codec seen sources).flatten.filterMap (clientKey codec)).Nodup ∧
      ∀ key ∈ (keptSources codec seen sources).flatten.filterMap (clientKey codec), key ∉ seen := by
  induction sources generalizing seen earlier with
  | nil => exact ⟨.nil, fun _ none => absurd none List.not_mem_nil⟩
  | cons head rest ih =>
      obtain ⟨first, others⟩ := List.forall_mem_cons.1 distinct
      obtain ⟨nodup, fresh⟩ := ih (covers_pass head covers) others
      obtain ⟨own, new⟩ := @nodup_survivors codec (.start seen) head
      simp only [mem_foldl_seenCalls, not_or] at fresh
      rw [keptSources, deduplicateSourceMessages_fst first, List.flatten_cons, List.filterMap_append]
      refine ⟨List.nodup_append.2 ⟨own, nodup, ?_⟩, List.forall_mem_append.2 ⟨new, fun key member => (fresh key member).1⟩⟩
      rintro key member _ later rfl
      exact (fresh key later).2 member

end Sources

/-! ## Stored sources -/

/-- A session has no two messages with one number: its rows are told apart by it. -/
theorem distinct_messagesOf {db : Database} {id : Uuid}
    (columns : ∀ row ∈ db.messages, -2 ^ 63 ≤ row.seq ∧ row.seq < 2 ^ 63) :
    (db.messagesOf id).Pairwise fun a b => a.seq ≠ b.seq := by
  have rows : ((db.messages.filter fun row => row.sessionId = id).insertionSort fun a b => a.seq ≤ b.seq).Pairwise
      fun a b => a.key ≠ b.key := by
    refine (List.perm_insertionSort _ _).symm.pairwise ?_ fun same => same.symm
    exact (List.pairwise_map.1 db.uniqueKeys).filter _
  refine List.pairwise_map.2 (rows.imp_of_mem fun {a b} left right differ same => differ ?_)
  obtain ⟨listed, owner⟩ := List.mem_filter.1 ((List.mem_insertionSort _).1 left)
  obtain ⟨listed', owner'⟩ := List.mem_filter.1 ((List.mem_insertionSort _).1 right)
  have numbers : a.seq = b.seq := by
    have := columns a listed
    have := columns b listed'
    simp only [MessageRow.read, wrapU64] at same
    omega
  exact Prod.ext ((of_decide_eq_true owner).trans (of_decide_eq_true owner').symm) numbers

end Deduplicating

/-- A merge with deduplication keeps of each source what the specification asks for, and counts the requests removed. -/
theorem mergeSessions_deduplicated {codec : Codec} (leaves : PrintsLeaves codec) {db after : Database} {id : Uuid}
    {names : List String} {result : MergeResult}
    (columns : ∀ row ∈ db.messages, -2 ^ 63 ≤ row.seq ∧ row.seq < 2 ^ 63)
    (merged : mergeSessions codec db id names true = .ok (after, result)) :
    ∃ (sources : List (SessionRow × List StoredMessage)) (kept : List (List StoredMessage)),
      loadSources db [] names = .ok sources ∧ kept.length = sources.length ∧
      after.messagesOf id = renumbered 0 kept.flatten ∧
      List.Sublist kept.flatten (sources.map Prod.snd).flatten ∧
      (∀ i source own, sources[i]? = some source → kept[i]? = some own →
        Deduplicating.SourceDeduplicated codec (kept.take i).flatten source.2 own) ∧
      (kept.flatten.filterMap (clientCall codec)).Nodup ∧
      result.deduplicatedCalls + kept.flatten.countP (fun message => IsClientRequest message) =
        (sources.map Prod.snd).flatten.countP fun message => IsClientRequest message := by
  obtain ⟨sources, summary, loaded, -, -, -, -, -, read, counted⟩ := mergeSessions_eq_ok merged
  have distinct : ∀ messages ∈ sources.map Prod.snd, messages.Pairwise fun a b => a.seq ≠ b.seq := by
    refine List.forall_mem_map.2 fun source member => ?_
    obtain ⟨name, -, -, got⟩ := loadSources_eq_ok loaded source member
    obtain ⟨row, -, rows⟩ := bind_eq_ok_iff.1 got
    exact Except.ok.inj rows ▸ Deduplicating.distinct_messagesOf columns
  have covers : Deduplicating.Covers codec [] [] := fun key => Iff.rfl
  have each {i : Nat} {messages own : List StoredMessage} (source : (sources.map Prod.snd)[i]? = some messages)
      (kept : (Deduplicating.keptSources codec [] (sources.map Prod.snd))[i]? = some own) :=
    Deduplicating.keptSources_deduplicated leaves covers distinct source kept
  refine ⟨sources, Deduplicating.keptSources codec [] (sources.map Prod.snd), loaded, ?_, ?_, ?_, ?_, ?_, ?_⟩
  · rw [Deduplicating.length_keptSources, List.length_map]
  · rw [read, Deduplicating.mergeMessages_fst]
  · exact Deduplicating.keptSources_sublist
  · intro i source own found kept
    exact each (by rw [List.getElem?_map, found, Option.map_some]) kept
  · refine List.Nodup.of_map (Deduplicating.keyOf codec) ?_
    rw [List.map_filterMap]
    simpa only [← Deduplicating.clientKey_eq] using (Deduplicating.nodup_keptSources covers distinct).1
  · rw [counted]
    exact Deduplicating.mergeMessages_snd distinct

theorem mergeSessions_deduplicated_repeated :
    ∃ after result, mergeSessions Compact.codec twoRecordings mergedId [firstId.text, secondId.text] true =
        .ok (after, result) ∧
      ∃ (sources : List (SessionRow × List StoredMessage)) (kept : List (List StoredMessage)),
        loadSources twoRecordings [] [firstId.text, secondId.text] = .ok sources ∧ kept.length = sources.length ∧
        after.messagesOf mergedId = renumbered 0 kept.flatten ∧
        List.Sublist kept.flatten (sources.map Prod.snd).flatten ∧
        (∀ i source own, sources[i]? = some source → kept[i]? = some own →
          Deduplicating.SourceDeduplicated Compact.codec (kept.take i).flatten source.2 own) ∧
        (kept.flatten.filterMap (clientCall Compact.codec)).Nodup ∧
        result.deduplicatedCalls + kept.flatten.countP (fun message => IsClientRequest message) =
          (sources.map Prod.snd).flatten.countP fun message => IsClientRequest message := by
  have succeeds : (mergeSessions Compact.codec twoRecordings mergedId [firstId.text, secondId.text] true).isOk := by
    decide +kernel
  cases merged : mergeSessions Compact.codec twoRecordings mergedId [firstId.text, secondId.text] true with
  | error failure =>
      rw [merged] at succeeds
      cases succeeds
  | ok pair =>
      exact ⟨pair.1, pair.2, rfl, mergeSessions_deduplicated printsLeaves_compact (by decide) merged⟩

/-! ### A call that is cancelled -/

def callCancelled (id : Uuid) : MessageRow where
  sessionId := id
  seq := 1
  tsNs := 0
  direction := "c2s"
  messageKind := "notification"
  rpcId := none
  method := some "notifications/cancelled"
  toolName := none
  payload := Compact.codec.toString (.object [("params", .object [("requestId", .number (.posInt 1))])])
  payloadBytes := 26
  isError := 0
  errorCode := none

def answeredLate (id : Uuid) : MessageRow := { listingAnswered id with seq := 2 }

def cancelledRecording : Database where
  sessions := [recordedSession firstId, recordedSession secondId]
  messages := [listingAsked firstId, listingAsked secondId, callCancelled secondId, answeredLate secondId]
  uniqueIds := twoRecordings.uniqueIds
  uniqueKeys := by decide +kernel
  owned := by decide +kernel

/-- The response to a repeated call goes with it, though the call was cancelled and no exchange pairs the two. -/
theorem late_response_removed :
    (mergeSessions Compact.codec cancelledRecording mergedId [firstId.text, secondId.text] true).toOption.map
        (fun merged => (merged.1.messagesOf mergedId).map fun message => (message.direction, message.messageKind)) =
      some [("c2s", "request"), ("c2s", "notification")] ∧
    ∀ exchange ∈ (correlate Compact.codec (cancelledRecording.messagesOf secondId)).exchanges,
      exchange.responseSeq = some 2 → exchange.requestSeq = none := by
  constructor
  · decide +kernel
  · decide +kernel

end McpTracer.Model
