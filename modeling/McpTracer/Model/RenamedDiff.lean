import McpTracer.Model.Renaming

/-! The diff of a session and its renaming.

Ids of requests and responses lie outside the compared bodies, and `requestId`
is a volatile key. A subscription id lies inside the compared body of a
notification under a key that is not.
-/

set_option autoImplicit false

namespace McpTracer.Model
open McpTracer.Foundation McpTracer.Json McpTracer.Protocol McpTracer.Storage

namespace IdRenaming

section Notifications
variable {ρ : IdRenaming} {codec : Codec} {m n : StoredMessage} {side : Direction}

/-- The id is not renamed, or redacted on a side. -/
def Unseen (ρ : IdRenaming) (id : Value) : Prop :=
  isRedacted id = true ∨ isRedacted (ρ.apply .clientToServer id) = true ∨
    id.beq (ρ.apply .clientToServer id) = true

/-- Every subscription that a server notification names is not renamed, or redacted on a side. -/
def KeepsSubscriptions (ρ : IdRenaming) (codec : Codec) (messages : List StoredMessage) : Prop :=
  ∀ message ∈ messages, message.direction = "s2c" → message.messageKind = "notification" →
    message.method.isSome = true → ∀ payload id, codec.fromStr message.payload = some payload →
      payload.getPath ["params", "_meta", subscriptionKey] = some id → ρ.Unseen id

theorem standard_plain : IgnoreRules.standard.pointers = [] := rfl

theorem unseen_iff (id : Value) :
    Agrees isRedacted (normalize .standard id) (normalize .standard (ρ.apply .clientToServer id)) ↔
      ρ.Unseen id := by
  have leaf (v : Value) (isId : v.isString = true ∨ v.isNumber = true) :
      v.isArray = false ∧ v.isObject = false := by
    cases v <;> simp_all [Value.isString, Value.isNumber, Value.isArray, Value.isObject]
  by_cases isId : id.isString = true ∨ id.isNumber = true
  · obtain ⟨noArray, noObject⟩ := leaf id isId
    obtain ⟨noArrayAfter, noObjectAfter⟩ :=
      leaf (ρ.apply .clientToServer id) ((apply_isId_iff id).mpr isId)
    rw [normalize_leaf standard_plain noArray noObject,
      normalize_leaf standard_plain noArrayAfter noObjectAfter]
    have leaves := compareLeaf_eq_nil_iff "" (a := id) (b := ρ.apply .clientToServer id)
      (by simp [noArray]) (by simp [noObject])
    rw [← leaves, compareValues_leaf "" (by simp [noArray]) (by simp [noObject]), Unseen]
    split_ifs with hidden same
    · simp only [true_iff, ← or_assoc]
      exact .inl (by simpa using hidden)
    · simp [same]
    · simp_all
  · rw [Unseen, apply_of_not_id isId]
    exact iff_of_true (.refl _ _) (.inr (.inr (Value.beq_self id)))

/-- Renamed parameters agree when the subscription is unseen. -/
theorem applyParams_agrees_iff (params : Value) :
    Agrees isRedacted (normalize .standard params) (normalize .standard (ρ.applyParams side m params)) ↔
      (side = .serverToClient ∧ m.method.isSome = true →
        ∀ id, params.getPath ["_meta", subscriptionKey] = some id → ρ.Unseen id) := by
  set cancelled := if m.method = some "notifications/cancelled" then
    params.update "requestId" (ρ.apply side) else params with cancelledEq
  have volatile (w : Value) : Agrees isRedacted (normalize .standard params) w ↔
      Agrees isRedacted (normalize .standard cancelled) w := by
    rw [cancelledEq]
    split_ifs
    · exact (normalize_update_volatile standard_plain (by decide +kernel) _ params w).symm
    · rfl
  have metas : cancelled.get "_meta" = params.get "_meta" := by
    rw [cancelledEq]
    split_ifs
    · exact Value.get_update_other (by decide) params
    · rfl
  rw [volatile, applyParams]
  simp only [← cancelledEq]
  by_cases fromServer : side = .serverToClient ∧ m.method.isSome = true
  · rw [if_pos fromServer, agrees_update_iff standard_plain (by decide +kernel), metas]
    have kept : isVolatileKey subscriptionKey .standard = false := by decide +kernel
    have below (meta_ : Value) := agrees_update_iff standard_plain kept (ρ.apply .clientToServer) meta_
    simp only [below, unseen_iff, fromServer, and_self, true_implies, Value.getPath_pair,
      Option.bind_eq_some_iff]
    exact ⟨fun same id ⟨meta_, found, member⟩ => same meta_ found id member,
      fun unseen meta_ found id member => unseen id ⟨meta_, found, member⟩⟩
  · rw [if_neg fromServer]
    exact iff_of_true (.refl _ _) fun both => absurd both fromServer

theorem notification_agrees_iff (renamed : ρ.Renamed codec m n)
    (known : Direction.fromDbStr m.direction = some side) (kind : m.messageKind = "notification") :
    NotificationsAgree codec .standard m n ↔ (side = .serverToClient ∧ m.method.isSome = true →
      ∀ payload id, codec.fromStr m.payload = some payload →
        payload.getPath ["params", "_meta", subscriptionKey] = some id → ρ.Unseen id) := by
  unfold NotificationsAgree
  rw [renamed.payload]
  cases codec.fromStr m.payload with
  | none => simp
  | some payload =>
      have kept : isVolatileKey "params" .standard = false := by decide +kernel
      have below := agrees_update_iff standard_plain kept (ρ.applyParams side m) payload
      simp only [applyParams_agrees_iff] at below
      simp only [Option.map_some, Option.some.injEq, applyPayload_notification known kind,
        Value.getPath_cons ["_meta", subscriptionKey], Option.bind_eq_some_iff]
      constructor
      · rintro same server _ id rfl ⟨params, found, member⟩
        exact below.mp (same _ _ rfl rfl) params found server id member
      · rintro unseen _ _ rfl rfl
        exact below.mpr fun params found server id member =>
          unseen server payload id rfl ⟨params, found, member⟩

/-- Parameters of a renamed message agree as parameters of a request. -/
theorem applyParams_requestsAgree {params : Value}
    (agrees : Agrees isRedacted (normalize .standard params)
      (normalize .standard (ρ.applyParams side m params))) :
    RequestsAgree .standard params (ρ.applyParams side m params) := by
  by_cases object : params.isObject = true
  · refine requests_agree_of_normalized standard_plain object ?_ ?_ agrees
    · rw [isObject_applyParams, object]
    · rw [get_applyParams_other (by decide) (by decide)]
  · rw [applyParams_of_not_object (by simpa using object)]
    exact .refl _ _

/-- What the diff reads of a payload under a sequence number. -/
structure SamePayload (v w : Value) : Prop where
  listing : SameListing v w
  error : v.get "error" = w.get "error"
  params : RequestsAgree .standard ((v.get "params").getD .null) ((w.get "params").getD .null)

/-- A renamed payload reads the same while its subscription is unseen. -/
theorem applyPayload_same (message : StoredMessage) (payload : Value)
    (unseen : message.direction = "s2c" → message.messageKind = "notification" →
      message.method.isSome = true → ∀ id,
      payload.getPath ["params", "_meta", subscriptionKey] = some id → ρ.Unseen id) :
    SamePayload payload (ρ.applyPayload message payload) := by
  have result : (ρ.applyPayload message payload).get "result" = payload.get "result" :=
    get_applyPayload (by decide) (by decide) payload
  have error : (ρ.applyPayload message payload).get "error" = payload.get "error" :=
    get_applyPayload (by decide) (by decide) payload
  suffices params : payload.getPath ["params", "cursor"] =
      (ρ.applyPayload message payload).getPath ["params", "cursor"] ∧
      RequestsAgree .standard ((payload.get "params").getD .null)
        (((ρ.applyPayload message payload).get "params").getD .null) from
    ⟨⟨params.1, result.symm⟩, error.symm, params.2⟩
  have same (kept : (ρ.applyPayload message payload).get "params" = payload.get "params") :
      payload.getPath ["params", "cursor"] =
        (ρ.applyPayload message payload).getPath ["params", "cursor"] ∧
      RequestsAgree .standard ((payload.get "params").getD .null)
        (((ρ.applyPayload message payload).get "params").getD .null) := by
    rw [Value.getPath_cons, Value.getPath_cons, kept]
    exact ⟨rfl, .refl _ _⟩
  cases known : Direction.fromDbStr message.direction with
  | none => exact same (by simp [applyPayload, known])
  | some side =>
      by_cases kind : message.messageKind = "notification"
      · rw [applyPayload_notification known kind, Value.getPath_pair, Value.getPath_pair,
          Value.get_update_same]
        cases found : payload.get "params" with
        | none => exact ⟨rfl, .refl _ _⟩
        | some params =>
            refine ⟨?_, applyParams_requestsAgree ((applyParams_agrees_iff params).mpr ?_)⟩
            · rw [Option.map_some, Option.bind_some, Option.bind_some,
                get_applyParams_other (by decide) (by decide)]
            · rintro ⟨rfl, named⟩ id member
              refine unseen ((Direction.fromDbStr_eq_some_iff _ _).mp known) kind named id ?_
              rw [Value.getPath_cons, found]
              exact member
      · refine same ?_
        unfold applyPayload
        split
        · exact Value.get_update_other (by decide) payload
        · exact Value.get_update_other (by decide) payload
        · contradiction
        · rfl

end Notifications

section Sessions
variable {ρ : IdRenaming} {codec : Codec} {as bs : List StoredMessage}

theorem renamed_corresponds (renamed : List.Forall₂ (ρ.Renamed codec) as bs) :
    List.Forall₂ (MessagesCorrespond codec (ρ.names codec)) as bs :=
  renamed.imp fun _ _ message => message.corresponds

theorem renamed_toolErrorsKept (renamed : List.Forall₂ (ρ.Renamed codec) as bs) :
    ToolErrorsKept codec (as.zip bs) := by
  rintro before pair after shape ⟨-, reports, lost, -⟩
  have member : pair ∈ as.zip bs := by simp [shape]
  have message := (List.forall₂_iff_zip.mp renamed).2 member
  simp [message.reportsToolError, reports] at lost

theorem renamed_payloads (renamed : List.Forall₂ (ρ.Renamed codec) as bs)
    (kept : ρ.KeepsSubscriptions codec as) (seq : Nat) :
    Option.Rel SamePayload (payloadsBySeq codec as seq) (payloadsBySeq codec bs seq) := by
  refine payloadsBySeq_related (List.forall₂_iff_zip.mpr ⟨renamed.length_eq, fun {m n} member => ?_⟩) seq
  have message := (List.forall₂_iff_zip.mp renamed).2 member
  refine ⟨message.seq, ?_⟩
  rw [message.payload]
  cases parsed : codec.fromStr m.payload with
  | none => exact .none
  | some payload =>
      exact .some (applyPayload_same m payload fun server kind named id =>
        kept m (List.of_mem_zip member).1 server kind named payload id parsed)

/-- The bodies of an exchange are the same in both sessions while subscriptions are unseen. -/
theorem renamed_bodiesAgree {aPayloads bPayloads : Table Nat Value}
    (payloads : ∀ seq, Option.Rel SamePayload (aPayloads seq) (bPayloads seq)) (exchange : Exchange) :
    BodiesAgree aPayloads bPayloads .standard exchange := by
  constructor
  case params =>
    intro v w left right
    have related := requestParams_related payloads (fun _ _ same => same.params) exchange
    rw [left, right] at related
    exact of_option_rel related
  case response =>
    intro field compared v w left right
    have members (first second : Value) (same : SamePayload first second) :
        first.get field = second.get field := by
      unfold comparedField at compared
      split at compared <;> cases compared
      · exact same.listing.2
      · exact same.listing.2
      · exact same.error
    have related : Option.Rel Eq (responseSubtree exchange aPayloads field)
        (responseSubtree exchange bPayloads field) := by
      refine responseSubtree_related payloads (fun first second same => ?_) exchange
      rw [members first second same]
      exact option_rel_refl (fun _ => rfl) _
    rw [left, right] at related
    obtain rfl := of_option_rel related
    exact .refl _ _

/-- A renaming is not reported exactly when no notification shows it. -/
theorem diffSessions_renamed_iff (ρ : IdRenaming) (codec : Codec) (as bs : List StoredMessage)
    (renamed : List.Forall₂ (ρ.Renamed codec) as bs) :
    (diffSessions codec as bs .standard).isEmpty = true ↔ ρ.KeepsSubscriptions codec as := by
  have messages := renamed_corresponds renamed
  have outcomes := renamed_toolErrorsKept renamed
  have empty : (diffSessions codec as bs .standard).isEmpty = true ↔
      AgreeWhereCompared codec as bs .standard :=
    diffSessions_isEmpty_iff.trans
      (and_iff_left (latencyQuiet_of_corresponds names_biUnique messages (by decide)))
  rw [empty, agreeWhereCompared_iff names_biUnique messages]
  constructor
  · rintro ⟨-, -, notifications, -⟩ m inA server kind named
    obtain ⟨n, member⟩ : ∃ n, (m, n) ∈ as.zip bs := by
      have firsts : (as.zip bs).map Prod.fst = as := List.map_fst_zip renamed.length_eq.le
      rw [← firsts] at inA
      obtain ⟨⟨m, n⟩, member, rfl⟩ := List.mem_map.mp inA
      exact ⟨n, member⟩
    have known := (Direction.fromDbStr_eq_some_iff m.direction .serverToClient).mpr server
    have participates : (notificationBase m).isSome = true :=
      notificationBase_isSome_iff.mpr ⟨kind, named, .serverToClient, known⟩
    exact (notification_agrees_iff ((List.forall₂_iff_zip.mp renamed).2 member) known kind).mp
      (notifications (m, n) member participates) ⟨rfl, named⟩
  · intro kept
    have payloads := renamed_payloads renamed kept
    refine ⟨outcomes, fun _ exchange _ => renamed_bodiesAgree payloads exchange,
      fun pair member participates => ?_, fun name => ?_⟩
    · obtain ⟨m, n⟩ := pair
      have message := (List.forall₂_iff_zip.mp renamed).2 member
      obtain ⟨kind, -, side, known⟩ := notificationBase_isSome_iff.mp participates
      refine (notification_agrees_iff message known kind).mpr ?_
      rintro ⟨fromServer, named⟩
      subst fromServer
      exact kept m (List.of_mem_zip member).1 ((Direction.fromDbStr_eq_some_iff _ _).mp known) kind named
    · rw [extractTools_corresponds names_biUnique messages outcomes fun seq => ?_]
      · exact option_rel_refl .refl _
      · exact option_rel_imp (payloads seq) fun _ _ same => same.listing

end Sessions

end IdRenaming

/-! ## A subscription under another id -/

instance : DecidableEq JsonRpcId := inferInstanceAs (DecidableEq (Subtype _))

def numberId (n : UInt64) : JsonRpcId := ⟨.number (.posInt n), .inr rfl⟩

/-- The two numbers trade places. -/
def swapIds (m n : UInt64) : IdRenaming where
  rename _ := Equiv.swap (numberId m) (numberId n)
  injective _ := (Equiv.swap (numberId m) (numberId n)).injective

theorem swapIds_apply (side : Direction) (m n : UInt64) :
    (swapIds m n).apply side (numberId m).1 = (numberId n).1 := by
  have swapped : (swapIds m n).rename side (numberId m) = numberId n := Equiv.swap_apply_left _ _
  rw [IdRenaming.apply, dif_pos (numberId m).2]
  exact congrArg Subtype.val swapped

def acknowledgement (params : List (String × Value)) : StoredMessage :=
  ⟨1, 5, "s2c", "notification", none, some "notifications/subscriptions/acknowledged", none,
    Compact.codec.toString (.object [("params", .object params)]), 0, false, none⟩

/-- A call with this id, and an acknowledgement with these parameters. -/
def subscribed (id : UInt64) (params : List (String × Value)) : List StoredMessage :=
  [⟨0, 0, "c2s", "request", some (Compact.codec.toString (numberId id).1), some "subscriptions/listen",
      none, Compact.codec.toString (.object [("id", (numberId id).1)]), 0, false, none⟩,
    acknowledgement params]

/-- The parameters of an acknowledgement that names its subscription. -/
def naming (id : UInt64) : List (String × Value) :=
  [("_meta", .object [(IdRenaming.subscriptionKey, (numberId id).1)])]

theorem subscribed_renamed {before after : List (String × Value)}
    (payload : Compact.codec.fromStr (acknowledgement after).payload =
      (Compact.codec.fromStr (acknowledgement before).payload).map
        ((swapIds 1 2).applyPayload (acknowledgement before))) :
    List.Forall₂ ((swapIds 1 2).Renamed Compact.codec) (subscribed 1 before) (subscribed 2 after) := by
  refine .cons ?call (.cons ?notification .nil)
  case call =>
    refine ⟨rfl, rfl, rfl, rfl, rfl, rfl, rfl, rfl, fun side known _ => ?_,
      fun _ _ kind => absurd kind (by decide), by decide +kernel⟩
    obtain rfl : Direction.clientToServer = side := Option.some.inj known
    exact .some (.inl ⟨(numberId 1).1, rfl, rfl, by rw [swapIds_apply]⟩)
  case notification =>
    exact ⟨rfl, rfl, rfl, rfl, rfl, rfl, rfl, rfl, fun _ _ kind => absurd kind (by simp [acknowledgement]),
      fun _ _ kind => absurd kind (by simp [acknowledgement]), payload⟩

/-- A renamed call is not reported. -/
theorem diffSessions_renamed_call :
    (diffSessions Compact.codec (subscribed 1 []) (subscribed 2 []) .standard).isEmpty = true := by
  refine (IdRenaming.diffSessions_renamed_iff (swapIds 1 2) Compact.codec _ _
    (subscribed_renamed (by decide +kernel))).mpr ?_
  intro message member server kind named payload id parsed found
  rcases List.mem_cons.mp member with rfl | member
  · exact absurd server (by decide)
  · obtain rfl := List.mem_singleton.mp member
    have bare : Compact.codec.fromStr (Compact.codec.toString (.object [("params", .object [])])) =
        some (.object [("params", .object [])]) := by decide +kernel
    obtain rfl := Option.some.inj (bare.symm.trans parsed)
    cases found

/-- The acknowledgement of a renamed subscription is reported as a change. -/
theorem renamed_subscription_reported :
    ¬ (List.Forall₂ ((swapIds 1 2).Renamed Compact.codec) (subscribed 1 (naming 1))
        (subscribed 2 (naming 2)) →
      (diffSessions Compact.codec (subscribed 1 (naming 1)) (subscribed 2 (naming 2))
        .standard).isEmpty = true) := by
  intro survives
  have empty := survives (subscribed_renamed (by decide +kernel))
  exact absurd empty (by decide +kernel)

end McpTracer.Model
