import McpTracer.Model.Emptiness
import McpTracer.Model.Pairing

/-! What an empty diff promises.

Parameters that are absent are read as null and so always compared. A response
body is compared only where both responses have the member; where one of them
has none, nothing is compared and nothing is reported.
-/

set_option autoImplicit false

namespace McpTracer.Model
open McpTracer.Foundation McpTracer.Json McpTracer.Protocol McpTracer.Storage

/-- The stored payloads of both sides of an exchange parse. -/
def Exchange.Parses (exchange : Exchange) (payloads : Table Nat Value) : Prop :=
  (∀ seq, exchange.requestSeq = some seq → (payloads seq).isSome = true) ∧
    ∀ seq, exchange.responseSeq = some seq → (payloads seq).isSome = true

/-- What an empty diff is to promise about two aligned exchanges. -/
structure ExchangesAgree (aPayloads bPayloads : Table Nat Value) (rules : IgnoreRules)
    (a b : Exchange) : Prop where
  status : a.status = b.status
  errorCode : a.errorCode = b.errorCode
  params : ∃ v w, requestParams a aPayloads = some v ∧ requestParams b bPayloads = some w ∧
    RequestsAgree rules v w
  /-- The compared member agrees, or is absent from both responses. -/
  member : ∀ field, comparedField a.status = some field →
    Option.Rel (ResponsesAgree rules) (responseSubtree a aPayloads field)
      (responseSubtree b bPayloads field)

/-- What an empty diff is to promise about two sessions. -/
def SessionsAgree (codec : Codec) (as bs : List StoredMessage) (rules : IgnoreRules) : Prop :=
  (keyedExchanges codec as).map Prod.fst = (keyedExchanges codec bs).map Prod.fst ∧
    ∀ key a b, (key, a) ∈ keyedExchanges codec as → (key, b) ∈ keyedExchanges codec bs →
      a.Parses (payloadsBySeq codec as) → b.Parses (payloadsBySeq codec bs) →
      ExchangesAgree (payloadsBySeq codec as) (payloadsBySeq codec bs) rules a b

/-- The compared member is in one of the two responses only. -/
def OneSided (aPayloads bPayloads : Table Nat Value) (a b : Exchange) : Prop :=
  ∃ field, comparedField a.status = some field ∧
    (responseSubtree a aPayloads field).isSome ≠ (responseSubtree b bPayloads field).isSome

/-- Aligned exchanges start with a request. -/
theorem requestSeq_of_keyed {codec : Codec} {messages : List StoredMessage} {key : String}
    {exchange : Exchange} (member : (key, exchange) ∈ keyedExchanges codec messages) :
    ∃ seq, exchange.requestSeq = some seq := by
  obtain ⟨listed, base⟩ := (Occurrence.exists_keyed_iff alignmentBase _ exchange).mp ⟨key, member⟩
  have status := (tracks_foldl codec messages).orphanStatus exchange
    ((mem_correlate codec messages exchange).mp listed)
  refine Option.ne_none_iff_exists'.mp fun absent => ?_
  simp [alignmentBase, status.mpr absent] at base

theorem requestParams_of_parses {codec : Codec} {messages : List StoredMessage} {key : String}
    {exchange : Exchange} (member : (key, exchange) ∈ keyedExchanges codec messages)
    (parses : exchange.Parses (payloadsBySeq codec messages)) :
    ∃ v, requestParams exchange (payloadsBySeq codec messages) = some v := by
  obtain ⟨seq, numbered⟩ := requestSeq_of_keyed member
  obtain ⟨payload, stored⟩ := Option.isSome_iff_exists.mp (parses.1 seq numbered)
  exact ⟨(payload.get "params").getD .null, by simp [requestParams, numbered, stored]⟩

/-- Sessions that agree wherever they are compared agree, up to one-sided members. -/
theorem sessionsAgree_iff {codec : Codec} {as bs : List StoredMessage} {rules : IgnoreRules}
    (agree : AgreeWhereCompared codec as bs rules) :
    SessionsAgree codec as bs rules ↔
      ∀ key a b, (key, a) ∈ keyedExchanges codec as → (key, b) ∈ keyedExchanges codec bs →
        a.Parses (payloadsBySeq codec as) → b.Parses (payloadsBySeq codec bs) →
        ¬ OneSided (payloadsBySeq codec as) (payloadsBySeq codec bs) a b := by
  constructor
  · rintro ⟨-, same⟩ key a b inA inB aParses bParses ⟨field, compared, oneSided⟩
    have related := (same key a b inA inB aParses bParses).member field compared
    generalize responseSubtree a _ field = left at related oneSided
    generalize responseSubtree b _ field = right at related oneSided
    cases related <;> exact oneSided rfl
  · intro twoSided
    refine ⟨agree.keys, fun key a b inA inB aParses bParses => ?_⟩
    obtain ⟨status, errorCode⟩ := agree.outcome key a b inA inB
    obtain ⟨v, left⟩ := requestParams_of_parses inA aParses
    obtain ⟨w, right⟩ := requestParams_of_parses inB bParses
    refine ⟨status, errorCode, ⟨v, w, left, right, agree.params key a b inA inB v w left right⟩,
      fun field compared => ?_⟩
    have bodies := agree.bodies key a b inA inB field compared
    have presence : (responseSubtree a (payloadsBySeq codec as) field).isSome =
        (responseSubtree b (payloadsBySeq codec bs) field).isSome := by
      by_contra differs
      exact twoSided key a b inA inB aParses bParses ⟨field, compared, differs⟩
    cases left : responseSubtree a (payloadsBySeq codec as) field <;>
      cases right : responseSubtree b (payloadsBySeq codec bs) field <;>
      simp only [left, right] at presence bodies ⊢
    · exact .none
    · cases presence
    · cases presence
    · exact .some (bodies _ _ rfl rfl)

/-- An empty diff is sound exactly for sessions that differ elsewhere or have no one-sided member. -/
theorem diffSessions_sound_iff (codec : Codec) (as bs : List StoredMessage) (options : DiffOptions)
    (noLatency : options.ignoreLatency = true) :
    ((diffSessions codec as bs options).isEmpty = true →
        SessionsAgree codec as bs options.ignore) ↔
      (AgreeWhereCompared codec as bs options.ignore →
        ∀ key a b, (key, a) ∈ keyedExchanges codec as → (key, b) ∈ keyedExchanges codec bs →
          a.Parses (payloadsBySeq codec as) → b.Parses (payloadsBySeq codec bs) →
          ¬ OneSided (payloadsBySeq codec as) (payloadsBySeq codec bs) a b) := by
  have empty : (diffSessions codec as bs options).isEmpty = true ↔
      AgreeWhereCompared codec as bs options.ignore :=
    diffSessions_isEmpty_iff.trans (and_iff_left (latencyQuiet_of_ignored noLatency))
  rw [empty]
  exact forall_congr' fun agree => sessionsAgree_iff agree

/-- A ping and the response to it, with these further members. -/
def pinged (members : List (String × Value)) : List StoredMessage :=
  let id : String × Value := ("id", .number (.posInt 1))
  [McpMessage.mk 0 0 .clientToServer (.object [id, ("method", .string "ping")]) 0,
    McpMessage.mk 1 5 .serverToClient (.object (id :: members)) 0].map
      (StoredMessage.ofMessage Compact.codec)

/-- The exchange of a ping with its response. -/
def pong : Exchange :=
  ⟨some 0, some 1, some "1", .clientToServer, some "ping", none, .ok, some 5, none, some 0, some 5⟩

/-- Everything is compared, latency apart. -/
def strict : DiffOptions := { DiffOptions.standard with ignore := ⟨[], []⟩, ignoreLatency := true }

theorem diffSessions_sound_pinged : SessionsAgree Compact.codec
    (pinged [("result", .object [])]) (pinged [("result", .object [])]) strict.ignore := by
  refine (diffSessions_sound_iff Compact.codec _ _ strict rfl).mpr
    (fun _ key a b inA inB _ _ oneSided => ?_) (by decide +kernel)
  obtain ⟨field, -, differs⟩ := oneSided
  have unique := List.inj_on_of_nodup_map (alignmentKeys_nodup _) inA inB rfl
  obtain rfl : a = b := (Prod.mk.inj unique).2
  exact differs rfl

/-- A result that disappears is not reported. -/
theorem lost_result_unreported :
    ¬ ((diffSessions Compact.codec (pinged [("result", .object [])]) (pinged []) strict).isEmpty = true →
      SessionsAgree Compact.codec (pinged [("result", .object [])]) (pinged []) strict.ignore) := by
  intro sound
  obtain ⟨-, aligned⟩ := sound (by decide +kernel)
  have agree := aligned "ping#0" pong pong (by decide +kernel) (by decide +kernel)
    ⟨fun seq same => by cases same; decide +kernel, fun seq same => by cases same; decide +kernel⟩
    ⟨fun seq same => by cases same; decide +kernel, fun seq same => by cases same; decide +kernel⟩
  have related := agree.member "result" rfl
  have before : responseSubtree pong (payloadsBySeq Compact.codec (pinged [("result", .object [])]))
      "result" = some (.object []) := by decide +kernel
  have after : responseSubtree pong (payloadsBySeq Compact.codec (pinged [])) "result" = none := by
    decide +kernel
  rw [before, after] at related
  cases related

end McpTracer.Model
