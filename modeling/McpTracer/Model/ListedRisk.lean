import McpTracer.Json.Members
import McpTracer.Model.Answering
import McpTracer.Model.Plan

/-! The risk of a planned call against the tool listings of the session.

The plan takes the last definition of a tool in any message of the server. It is
as if the listings were all there is when the last definition of each tool that
is called is in a listing, or gives it the risk that the listings give.
-/

set_option autoImplicit false

namespace McpTracer.Model
open McpTracer.Foundation McpTracer.Json McpTracer.Protocol McpTracer.Storage

/-! ## Listings -/

/-- The client asked for the tools, whatever came of it. -/
def Exchange.isListing (exchange : Exchange) : Bool :=
  exchange.requestSeq.isSome && exchange.origin == .clientToServer && exchange.method == some "tools/list"

/-- The responses that correlate with a request for the tools. -/
def listingSeqs (codec : Codec) (messages : List StoredMessage) : List Nat :=
  ((correlate codec messages).exchanges.filter Exchange.isListing).filterMap Exchange.responseSeq

/-- A message of the server that lists the tools. -/
def IsListing (listings : List Nat) (message : StoredMessage) : Prop :=
  message.direction = "s2c" ∧ message.seq ∈ listings

instance (listings : List Nat) (message : StoredMessage) : Decidable (IsListing listings message) :=
  inferInstanceAs (Decidable (_ ∧ _))

def listings (codec : Codec) (source : List StoredMessage) : List StoredMessage :=
  source.filter fun message => IsListing (listingSeqs codec source) message

/-- A message of the server that is no listing. -/
def IsOther (listings : List Nat) (message : StoredMessage) : Prop :=
  message.direction = "s2c" ∧ message.seq ∉ listings

instance (listings : List Nat) (message : StoredMessage) : Decidable (IsOther listings message) :=
  inferInstanceAs (Decidable (_ ∧ _))

/-- The message without what it says. -/
def blanked (codec : Codec) (message : StoredMessage) : StoredMessage :=
  { message with payload := codec.toString .null }

/-- The session in which the messages of the server say nothing, other than the listings. -/
def withoutOthers (codec : Codec) (source : List StoredMessage) : List StoredMessage :=
  source.map fun message => if IsOther (listingSeqs codec source) message then blanked codec message else message

def Plan.risks (plan : Plan) : List RiskLevel := plan.calls.map PlannedCall.risk

/-- What other messages of the server say plays no role for the risks in the plan. -/
def RisksFromListings (codec : Codec) (source : List StoredMessage) (allowTools denyTools : List String) : Prop :=
  (buildPlan codec source allowTools denyTools).risks =
      (buildPlan codec (withoutOthers codec source) allowTools denyTools).risks ∧
    (buildPlan codec source allowTools denyTools).requiresAcknowledgement =
      (buildPlan codec (withoutOthers codec source) allowTools denyTools).requiresAcknowledgement

/-- The tools that a message of the server defines. -/
def definitionsIn (codec : Codec) (message : StoredMessage) : List Value :=
  if message.direction ≠ "s2c" then []
  else (((codec.fromStr message.payload).bind (Value.getPath ["result", "tools"])).bind Value.asArray).getD []

/-- The hints of a definition of this tool. -/
def hintsOf (name : String) (tool : Value) : Option ToolAnnotations :=
  if (tool.get "name").bind Value.asStr = some name then
    some (((tool.get "annotations").map ToolAnnotations.fromValue).getD .default)
  else none

/-- The hints of the last definition of a tool in a message of the server. -/
def hintsIn (codec : Codec) (message : StoredMessage) (name : String) : Option ToolAnnotations :=
  (definitionsIn codec message).reverse.findSome? (hintsOf name)

/-- When another message has the last definition of a tool that is called, it gives it the risk that the listings
give. -/
def OthersAgree (codec : Codec) (source : List StoredMessage) : Prop :=
  ∀ message ∈ drivenMessages source, ∀ name, message.toolName = some name →
    ∀ before other after hints, source = before ++ other :: after → IsOther (listingSeqs codec source) other →
      hintsIn codec other name = some hints → (∀ later ∈ after, hintsIn codec later name = none) →
      riskFor (some name) (some hints) = riskFor (some name) ((observedToolAnnotations codec (listings codec source)).lookup name)

/-! ## The last definition counts -/

section Observed
variable {codec : Codec} {source : List StoredMessage} {name : String}

/-- The last value that a list of messages gives. -/
def lastOf {V : Type} (value : StoredMessage → Option V) (messages : List StoredMessage) : Option V :=
  messages.reverse.findSome? value

theorem lookup_foldl_tools (tools : List Value) (annotations : List (String × ToolAnnotations)) :
    (tools.foldl (fun annotations tool =>
      match (tool.get "name").bind Value.asStr with
      | none => annotations
      | some name =>
        let hints := ((tool.get "annotations").map ToolAnnotations.fromValue).getD .default
        SortedMap.insert name hints annotations) annotations).lookup name =
      (tools.reverse.findSome? (hintsOf name)).or (annotations.lookup name) := by
  induction tools generalizing annotations with
  | nil => rfl
  | cons tool rest ih =>
      rw [List.foldl_cons, ih, List.reverse_cons, List.findSome?_append, Option.or_assoc]
      congr 1
      cases named : (tool.get "name").bind Value.asStr with
      | none => simp [hintsOf, named]
      | some own =>
          simp only [lookup_insert, List.findSome?_cons, hintsOf, named, Option.some.injEq, List.findSome?_nil]
          by_cases same : name = own
          · simp [same]
          · simp [same, Ne.symm same]

theorem lookup_observeListing (annotations : List (String × ToolAnnotations)) (message : StoredMessage) :
    (observeListing codec annotations message).lookup name =
      (hintsIn codec message name).or (annotations.lookup name) := by
  unfold observeListing hintsIn definitionsIn
  split_ifs
  · rfl
  · exact lookup_foldl_tools _ annotations

theorem lookup_observed : (observedToolAnnotations codec source).lookup name =
    lastOf (fun message => hintsIn codec message name) source := by
  unfold observedToolAnnotations
  induction source using List.reverseRecOn with
  | nil => rfl
  | append_singleton source message ih =>
      rw [List.foldl_append, List.foldl_cons, List.foldl_nil, lookup_observeListing, ih, lastOf, lastOf,
        List.reverse_append, List.reverse_singleton, List.singleton_append, List.findSome?_cons]
      cases hintsIn codec message name <;> rfl

theorem lastOf_eq_some_iff {V : Type} {value : StoredMessage → Option V} {messages : List StoredMessage} {v : V} :
    lastOf value messages = some v ↔ ∃ before message after, messages = before ++ message :: after ∧
      value message = some v ∧ ∀ later ∈ after, value later = none := by
  rw [lastOf, List.findSome?_eq_some_iff]
  constructor
  · rintro ⟨front, message, back, shape, found, calm⟩
    refine ⟨back.reverse, message, front.reverse, ?_, found, fun later member => calm later (List.mem_reverse.1 member)⟩
    rw [← List.reverse_reverse messages, shape]
    simp
  · rintro ⟨before, message, after, rfl, found, calm⟩
    exact ⟨after.reverse, message, before.reverse, by simp, found, fun later member => calm later (List.mem_reverse.1 member)⟩

/-- Messages that give nothing can be left out. -/
theorem lastOf_filter {V : Type} {value : StoredMessage → Option V} {keep : StoredMessage → Bool}
    (messages : List StoredMessage) : lastOf value (messages.filter keep) =
      lastOf (fun message => if keep message = true then value message else none) messages := by
  induction messages using List.reverseRecOn with
  | nil => rfl
  | append_singleton messages last ih =>
      simp only [lastOf, List.filter_append, List.reverse_append, List.findSome?_append] at ih ⊢
      rw [ih]
      by_cases kept : keep last = true
      · simp [kept]
      · simp [kept]

theorem hintsIn_of_client {message : StoredMessage} (client : message.direction ≠ "s2c") : hintsIn codec message name = none := by
  rw [hintsIn, definitionsIn, if_pos client]
  rfl

/-- A message that says nothing defines no tool. -/
theorem hintsIn_blanked (message : StoredMessage) : hintsIn codec (blanked codec message) name = none := by
  have nothing : codec.fromStr (codec.toString .null) = some .null :=
    codec.fromStr_toString rfl (by simp [Value.depth, recursionLimit]) rfl
  unfold hintsIn definitionsIn blanked
  split_ifs
  · rfl
  · simp [nothing, Value.getPath, Value.get]

theorem lookup_withoutOthers : (observedToolAnnotations codec (withoutOthers codec source)).lookup name =
    (observedToolAnnotations codec (listings codec source)).lookup name := by
  rw [lookup_observed, lookup_observed, listings, lastOf_filter, withoutOthers, lastOf, lastOf, ← List.map_reverse,
    List.findSome?_map]
  congr 1
  funext message
  simp only [Function.comp_apply, decide_eq_true_eq]
  by_cases server : message.direction = "s2c"
  · by_cases listed : message.seq ∈ listingSeqs codec source
    · rw [if_neg fun other => other.2 listed, if_pos ⟨server, listed⟩]
    · rw [if_pos ⟨server, listed⟩, if_neg fun listing => listed listing.2, hintsIn_blanked]
  · rw [if_neg fun other => server other.1, if_neg fun listing => server listing.1, hintsIn_of_client server]

/-- The definitions in listings are the last ones, or the last one is elsewhere. -/
theorem riskFor_eq_iff : riskFor (some name) ((observedToolAnnotations codec source).lookup name) =
      riskFor (some name) ((observedToolAnnotations codec (withoutOthers codec source)).lookup name) ↔
    ∀ before other after hints, source = before ++ other :: after → IsOther (listingSeqs codec source) other →
      hintsIn codec other name = some hints → (∀ later ∈ after, hintsIn codec later name = none) →
      riskFor (some name) (some hints) = riskFor (some name) ((observedToolAnnotations codec (listings codec source)).lookup name) := by
  rw [lookup_withoutOthers]
  constructor
  · intro same before other after hints shape _ found calm
    rw [← same, lookup_observed, lastOf_eq_some_iff.2 ⟨before, other, after, shape, found, calm⟩]
  · intro agree
    rw [@lookup_observed codec source name]
    cases last : lastOf (fun message => hintsIn codec message name) source with
    | none =>
        -- No message defines the tool, so no listing does.
        have none_ : ∀ message ∈ source, hintsIn codec message name = none := by
          intro message member
          exact List.findSome?_eq_none_iff.1 last message (List.mem_reverse.2 member)
        have absent : lastOf (fun message => hintsIn codec message name) (listings codec source) = none := by
          refine List.findSome?_eq_none_iff.2 fun message member => ?_
          exact none_ message (List.mem_of_mem_filter (List.mem_reverse.1 member))
        rw [lookup_observed, absent]
    | some hints =>
        obtain ⟨before, message, after, shape, found, calm⟩ := lastOf_eq_some_iff.1 last
        by_cases other : IsOther (listingSeqs codec source) message
        · exact agree before message after hints shape other found calm
        · have server : message.direction = "s2c" := by
            by_contra client
            rw [hintsIn_of_client client] at found
            cases found
          have listing : IsListing (listingSeqs codec source) message := ⟨server, not_not.1 fun none => other ⟨server, none⟩⟩
          have listed : lastOf (fun message => hintsIn codec message name) (listings codec source) = some hints := by
            let keep (message : StoredMessage) : Bool := IsListing (listingSeqs codec source) message
            have split : listings codec source = before.filter keep ++ message :: after.filter keep := by
              conv_lhs => rw [listings, shape]
              rw [List.filter_append, List.filter_cons_of_pos (by simp [← shape, listing])]
              simp only [← shape, keep]
            exact lastOf_eq_some_iff.2 ⟨_, message, _, split, found, fun later member => calm later (List.mem_of_mem_filter member)⟩
          rw [lookup_observed, listed]

end Observed

/-! ## The plan -/

section Plan
variable {codec : Codec} {source : List StoredMessage} {allowTools denyTools : List String}

/-- The messages of the client stay as they are. -/
theorem drivenMessages_withoutOthers : drivenMessages (withoutOthers codec source) = drivenMessages source := by
  have driven : (withoutOthers codec source).filter isDriven = source.filter isDriven := by
    unfold withoutOthers
    generalize listingSeqs codec source = listings
    induction source with
    | nil => rfl
    | cons message rest ih =>
        rw [List.map_cons, List.filter_cons, List.filter_cons, ih]
        by_cases other : IsOther listings message
        · have server : isDriven message = false := by simp [isDriven, other.1]
          have blank : isDriven (blanked codec message) = false := server
          rw [if_pos other, blank, server, if_neg Bool.false_ne_true, if_neg Bool.false_ne_true]
        · rw [if_neg other]
  rw [drivenMessages, driven, drivenMessages]

theorem risks_eq : (buildPlan codec source allowTools denyTools).risks = (drivenMessages source).map fun message =>
    riskFor message.toolName (message.toolName.bind fun name => (observedToolAnnotations codec source).lookup name) := by
  simp [Plan.risks, buildPlan, plannedCall]

/-- An acknowledgement is asked for when a call that is sent is destructive or has a placeholder. -/
theorem requiresAcknowledgement_eq : (buildPlan codec source allowTools denyTools).requiresAcknowledgement =
    (((drivenMessages source).any fun message => toolIsAllowed message.toolName allowTools denyTools &&
        riskFor message.toolName (message.toolName.bind fun name => (observedToolAnnotations codec source).lookup name) =
          .destructive) ||
      (drivenMessages source).any fun message => toolIsAllowed message.toolName allowTools denyTools &&
        containsPlaceholder message.payload) := by
  rw [Bool.eq_iff_iff]
  simp only [buildPlan, plannedCall, List.countP_map, Function.comp_def, Bool.or_eq_true, decide_eq_true_eq,
    List.countP_pos_iff, List.any_eq_true]
  rfl

/-- The risks are those of the listings exactly when the other messages agree with them. -/
theorem risksFromListings_iff : RisksFromListings codec source allowTools denyTools ↔ OthersAgree codec source := by
  have named {message : StoredMessage} {name : String} (called : message.toolName = some name) (known : List StoredMessage) :
      riskFor message.toolName (message.toolName.bind fun name => (observedToolAnnotations codec known).lookup name) =
        riskFor (some name) ((observedToolAnnotations codec known).lookup name) := by
    rw [called, Option.bind_some]
  constructor
  · rintro ⟨same, -⟩ message driven name called
    rw [risks_eq, risks_eq, drivenMessages_withoutOthers] at same
    have here := List.map_inj_left.1 same message driven
    rw [named called, named called] at here
    exact riskFor_eq_iff.1 here
  · intro agree
    have each : ∀ message ∈ drivenMessages source,
        riskFor message.toolName (message.toolName.bind fun name => (observedToolAnnotations codec source).lookup name) =
          riskFor message.toolName (message.toolName.bind fun name =>
            (observedToolAnnotations codec (withoutOthers codec source)).lookup name) := by
      intro message driven
      cases called : message.toolName with
      | none => rfl
      | some name => exact riskFor_eq_iff.2 (agree message driven name called)
    refine ⟨?_, ?_⟩
    · rw [risks_eq, risks_eq, drivenMessages_withoutOthers]
      exact List.map_congr_left each
    · rw [requiresAcknowledgement_eq, requiresAcknowledgement_eq, drivenMessages_withoutOthers]
      congr 1
      rw [Bool.eq_iff_iff, List.any_eq_true, List.any_eq_true]
      refine exists_congr fun message => and_congr_right fun driven => ?_
      rw [each message driven]

end Plan

/-! ## Two sessions -/

/-- The sessions differ only in what messages of the server say that are no listings. -/
def SameButOthers (codec : Codec) (source changed : List StoredMessage) : Prop :=
  List.Forall₂ (fun message after => after = message ∨
    IsOther (listingSeqs codec source) message ∧ after = { message with payload := after.payload }) source changed

/-- Only what a message of the server says may differ. -/
def SameFrame (message after : StoredMessage) : Prop :=
  after = { message with payload := after.payload } ∧ (message.direction ≠ "s2c" → after = message)

section Sessions
variable {codec : Codec} {source changed : List StoredMessage}

theorem SameButOthers.frames (same : SameButOthers codec source changed) : List.Forall₂ SameFrame source changed := by
  refine List.Forall₂.imp (fun message after related => ?_) same
  rcases related with rfl | ⟨other, shape⟩
  · exact ⟨rfl, fun _ => rfl⟩
  · exact ⟨shape, fun client => absurd other.1 client⟩

theorem SameFrame.symm {message after : StoredMessage} (same : SameFrame message after) : SameFrame after message := by
  obtain ⟨shape, client⟩ := same
  refine ⟨by rw [shape], fun notServer => (client ?_).symm⟩
  rw [shape] at notServer
  exact notServer

theorem frames_symm (frames : List.Forall₂ SameFrame source changed) : List.Forall₂ SameFrame changed source :=
  frames.flip.imp fun _ _ => SameFrame.symm

/-- A response that answers a request of the client for the tools. -/
def AnswersListing (codec : Codec) (source : List StoredMessage) (seq : Nat) : Prop :=
  ∃ before response after, source = before ++ response :: after ∧ response.seq = seq ∧
    ∃ earlier request between, before = earlier ++ request :: between ∧ request.direction = "c2s" ∧
      request.method = some "tools/list" ∧ Answers codec request between response

theorem mem_listingSeqs_iff (increasing : StoredMessage.Increasing source) {seq : Nat} :
    seq ∈ listingSeqs codec source ↔ AnswersListing codec source seq := by
  simp only [listingSeqs, List.mem_filterMap, List.mem_filter, Exchange.isListing, Bool.and_eq_true, beq_iff_eq]
  constructor
  · rintro ⟨exchange, ⟨member, ⟨asked, origin⟩, method⟩, answered⟩
    obtain ⟨a, requestSeq⟩ := Option.isSome_iff_exists.1 asked
    obtain ⟨before, response, after, shape, same, earlier, request, between, split, number, answers⟩ :=
      paired_iff.1 ⟨exchange, member, requestSeq, answered⟩
    obtain ⟨message, inside, asks⟩ := asks_of_requestSeq member (by simp [requestSeq])
    have numbers : request.seq = message.seq := number.trans (Option.some.inj (requestSeq.symm.trans asks.1))
    obtain rfl := eq_of_seq_eq increasing (by simp [shape, split]) inside numbers
    exact ⟨before, response, after, shape, same, earlier, request, between, split,
      asks.2.1.trans (congrArg Direction.asDbStr origin), asks.2.2.2.trans method, answers⟩
  · rintro ⟨before, response, after, shape, same, earlier, request, between, split, client, method, answers⟩
    obtain ⟨exchange, member, requestSeq, answered⟩ :=
      paired_iff.2 ⟨before, response, after, shape, same, earlier, request, between, split, rfl, answers⟩
    obtain ⟨message, inside, asks⟩ := asks_of_requestSeq member (by simp [requestSeq])
    have numbers : request.seq = message.seq := Option.some.inj (requestSeq.symm.trans asks.1)
    obtain rfl := eq_of_seq_eq increasing (by simp [shape, split]) inside numbers
    have origin : exchange.origin = .clientToServer := asDbStr_inj.1 (asks.2.1.symm.trans client)
    exact ⟨exchange, ⟨member, ⟨by simp [requestSeq], origin⟩, asks.2.2.2.symm.trans method⟩, answered⟩

/-- What the server says plays no role for which of its messages are listings. -/
theorem answersListing_transfer (frames : List.Forall₂ SameFrame source changed) {seq : Nat}
    (listed : AnswersListing codec source seq) : AnswersListing codec changed seq := by
  obtain ⟨before, response, after, rfl, number, earlier, request, between, rfl, client, method, direction, id, asks,
    responds, calm⟩ := listed
  obtain ⟨front, response', back, rfl, fronts, ⟨shape, -⟩, -⟩ := forall₂_split frames
  obtain ⟨earlier', request', between', rfl, -, ⟨-, same⟩, betweens⟩ := forall₂_split fronts
  obtain rfl : request' = request := same (by rw [client]; decide)
  obtain rfl : direction = .clientToServer := asDbStr_inj.1 (asks.1.symm.trans client)
  refine ⟨_, response', back, rfl, ?_, earlier', request', between', rfl, client, method, .clientToServer, id, asks, ?_, ?_⟩
  · rw [shape]
    exact number
  · rw [shape]
    exact responds
  · intro message' member
    obtain ⟨message, inside, shape', same'⟩ := exists_of_forall₂_right betweens member
    obtain ⟨notRequest, notResponse, notCancelled⟩ := calm message inside
    rw [shape']
    refine ⟨notRequest, notResponse, fun cancels => notCancelled ?_⟩
    -- A cancellation by the client is the same in both sessions.
    have still := same' (by rw [show message.direction = "c2s" from cancels.1]; decide)
    rw [← still]
    exact shape' ▸ cancels

theorem seqs_of_frames (frames : List.Forall₂ SameFrame source changed) :
    changed.map StoredMessage.seq = source.map StoredMessage.seq := by
  induction frames with
  | nil => rfl
  | cons first _ ih => rw [List.map_cons, List.map_cons, ih, first.1]

theorem increasing_of_frames (frames : List.Forall₂ SameFrame source changed)
    (increasing : StoredMessage.Increasing source) : StoredMessage.Increasing changed := by
  have sorted : (changed.map StoredMessage.seq).Pairwise (· < ·) := by
    rw [seqs_of_frames frames]
    exact List.pairwise_map.2 increasing
  exact List.pairwise_map.1 sorted

theorem blanked_same {numbers : List Nat} (same : List.Forall₂ (fun message after => after = message ∨
      IsOther numbers message ∧ after = { message with payload := after.payload }) source changed) :
    (changed.map fun message => if IsOther numbers message then blanked codec message else message) =
      source.map fun message => if IsOther numbers message then blanked codec message else message := by
  induction same with
  | nil => rfl
  | @cons message after _ _ first _ ih =>
      rw [List.map_cons, List.map_cons, ih]
      congr 1
      rcases first with rfl | ⟨other, shape⟩
      · rfl
      · have also : IsOther numbers after := by
          rw [shape]
          exact other
        rw [if_pos other, if_pos also, shape]
        rfl

/-- Both sessions are the same without the other messages of the server. -/
theorem withoutOthers_of_same (increasing : StoredMessage.Increasing source) (same : SameButOthers codec source changed) :
    withoutOthers codec changed = withoutOthers codec source := by
  have increasing' := increasing_of_frames same.frames increasing
  have listed (seq : Nat) : seq ∈ listingSeqs codec changed ↔ seq ∈ listingSeqs codec source := by
    rw [mem_listingSeqs_iff increasing, mem_listingSeqs_iff increasing']
    exact ⟨answersListing_transfer (frames_symm same.frames), answersListing_transfer same.frames⟩
  have others (message : StoredMessage) :
      IsOther (listingSeqs codec changed) message ↔ IsOther (listingSeqs codec source) message :=
    and_congr_right fun _ => not_congr (listed message.seq)
  rw [withoutOthers, withoutOthers, ← blanked_same same]
  exact List.map_congr_left fun message _ => if_congr (others message) rfl rfl

/-- Sessions that differ in what other messages say have the same risks where these agree with the listings. -/
theorem risks_of_same (increasing : StoredMessage.Increasing source) (same : SameButOthers codec source changed)
    {allowTools denyTools : List String} (agree : OthersAgree codec source) (agree' : OthersAgree codec changed) :
    (buildPlan codec changed allowTools denyTools).risks = (buildPlan codec source allowTools denyTools).risks ∧
      (buildPlan codec changed allowTools denyTools).requiresAcknowledgement =
        (buildPlan codec source allowTools denyTools).requiresAcknowledgement := by
  obtain ⟨risks, acknowledgement⟩ := (@risksFromListings_iff codec source allowTools denyTools).2 agree
  obtain ⟨risks', acknowledgement'⟩ := (@risksFromListings_iff codec changed allowTools denyTools).2 agree'
  rw [withoutOthers_of_same increasing same] at risks' acknowledgement'
  exact ⟨risks'.trans risks.symm, acknowledgement'.trans acknowledgement.symm⟩

end Sessions

/-- The risks in a plan come from the tool listings only, exactly when no other message of the server has the last
definition of a tool that is called, with another risk. -/
theorem buildPlan_risks_from_listings_iff (codec : Codec) (source : List StoredMessage) (allowTools denyTools : List String) :
    (RisksFromListings codec source allowTools denyTools ↔ OthersAgree codec source) ∧
      ∀ changed, StoredMessage.Increasing source → SameButOthers codec source changed → OthersAgree codec source →
        OthersAgree codec changed →
        (buildPlan codec changed allowTools denyTools).risks = (buildPlan codec source allowTools denyTools).risks ∧
          (buildPlan codec changed allowTools denyTools).requiresAcknowledgement =
            (buildPlan codec source allowTools denyTools).requiresAcknowledgement :=
  ⟨risksFromListings_iff, fun _ increasing same agree agree' => risks_of_same increasing same agree agree'⟩

/-! ### A result that carries tools -/

def deleteCalled : StoredMessage where
  seq := 0
  tsNs := 0
  direction := "c2s"
  messageKind := "request"
  rpcId := some "1"
  method := some "tools/call"
  toolName := some "delete"
  payload := Compact.codec.toString (.object [("method", .string "tools/call")])
  payloadBytes := 0
  isError := false
  errorCode := none

/-- The result of the call calls the tool read-only. -/
def deleteAnswered : StoredMessage where
  seq := 1
  tsNs := 0
  direction := "s2c"
  messageKind := "response"
  rpcId := some "1"
  method := none
  toolName := none
  payload := Compact.codec.toString (.object [("result", .object [("tools", .array [.object [
    ("annotations", .object [("readOnlyHint", .bool true)]), ("name", .string "delete")]])])])
  payloadBytes := 0
  isError := false
  errorCode := none

/-- A call is marked read-only by its own result, in a session without any listing. -/
theorem risk_from_result : listingSeqs Compact.codec [deleteCalled, deleteAnswered] = [] ∧
    (buildPlan Compact.codec [deleteCalled, deleteAnswered] [] []).risks = [.readOnly] ∧
    ¬ RisksFromListings Compact.codec [deleteCalled, deleteAnswered] [] [] := by
  refine ⟨by decide +kernel, by decide +kernel, ?_⟩
  rintro ⟨same, -⟩
  exact absurd same (by decide +kernel)

end McpTracer.Model
