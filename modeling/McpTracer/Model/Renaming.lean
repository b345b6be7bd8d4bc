import McpTracer.Model.CorrespondingDiff
import McpTracer.Model.Normalization

/-! Sessions that differ in their ids only.

A renaming replaces ids one to one, for each side that originates calls. It is
applied to the ids of requests and responses, to the request a cancellation
names and to the subscription a server notification names. Correlation does not
see it. The diff sees nothing but the subscriptions.
-/

set_option autoImplicit false

namespace McpTracer.Model
open McpTracer.Foundation McpTracer.Json McpTracer.Protocol McpTracer.Storage

/-- What identifies a call: a string or a number. -/
def JsonRpcId := {v : Value // v.isString = true ∨ v.isNumber = true}

/-- A map on the ids of either originator that keeps different ids apart. -/
structure IdRenaming where
  rename : Direction → JsonRpcId → JsonRpcId
  injective : ∀ originator, Function.Injective (rename originator)

namespace IdRenaming
variable (ρ : IdRenaming)

/-- Values that are no id stay. -/
def apply (originator : Direction) (v : Value) : Value :=
  if isId : v.isString = true ∨ v.isNumber = true then (ρ.rename originator ⟨v, isId⟩).1 else v

/-- The texts of an id and of the one it is renamed to; texts of no value stay. -/
def Renames (codec : Codec) (originator : Direction) (x y : String) : Prop :=
  (∃ v, v.wellFormed = true ∧ codec.toString v = x ∧ codec.toString (ρ.apply originator v) = y) ∨
    (x = y ∧ ∀ v, v.wellFormed = true → codec.toString v ≠ x)

def subscriptionKey : String := "io.modelcontextprotocol/subscriptionId"

/-- The parameters of a notification from this side. -/
def applyParams (side : Direction) (message : StoredMessage) (params : Value) : Value :=
  let cancelled :=
    if message.method = some "notifications/cancelled" then
      params.update "requestId" (ρ.apply side)
    else params
  if side = .serverToClient ∧ message.method.isSome = true then
    cancelled.update "_meta" (Value.update subscriptionKey (ρ.apply .clientToServer))
  else cancelled

/-- The payload of a message with its ids renamed. -/
def applyPayload (message : StoredMessage) (payload : Value) : Value :=
  match Direction.fromDbStr message.direction, message.messageKind with
  | some side, "request" => payload.update "id" (ρ.apply side)
  | some side, "response" => payload.update "id" (ρ.apply side.opposite)
  | some side, "notification" => payload.update "params" (ρ.applyParams side message)
  | _, _ => payload

/-- The second message is the first with its ids renamed. -/
structure Renamed (codec : Codec) (m n : StoredMessage) : Prop where
  seq : m.seq = n.seq
  tsNs : m.tsNs = n.tsNs
  direction : m.direction = n.direction
  messageKind : m.messageKind = n.messageKind
  method : m.method = n.method
  toolName : m.toolName = n.toolName
  isError : m.isError = n.isError
  errorCode : m.errorCode = n.errorCode
  request : ∀ side, Direction.fromDbStr m.direction = some side → m.messageKind = "request" →
    Option.Rel (ρ.Renames codec side) m.rpcId n.rpcId
  response : ∀ side, Direction.fromDbStr m.direction = some side → m.messageKind = "response" →
    Option.Rel (ρ.Renames codec side.opposite) m.rpcId n.rpcId
  payload : codec.fromStr n.payload = (codec.fromStr m.payload).map (ρ.applyPayload m)

/-! ## Renaming values and texts -/

section Apply
variable {ρ} {codec : Codec} {originator : Direction}

theorem apply_of_not_id {v : Value} (plain : ¬ (v.isString = true ∨ v.isNumber = true)) :
    ρ.apply originator v = v := dif_neg plain

theorem apply_isId_iff (v : Value) :
    ((ρ.apply originator v).isString = true ∨ (ρ.apply originator v).isNumber = true) ↔
      (v.isString = true ∨ v.isNumber = true) := by
  by_cases isId : v.isString = true ∨ v.isNumber = true
  · rw [apply, dif_pos isId]
    exact iff_of_true (ρ.rename originator ⟨v, isId⟩).2 isId
  · rw [apply_of_not_id isId]

theorem apply_injective : Function.Injective (ρ.apply originator) := by
  intro v w same
  by_cases left : v.isString = true ∨ v.isNumber = true
  · have right := (apply_isId_iff w).mp (same ▸ (apply_isId_iff v).mpr left)
    rw [apply, apply, dif_pos left, dif_pos right] at same
    exact congrArg Subtype.val (ρ.injective originator (Subtype.ext same))
  · have right := fun isId => left ((apply_isId_iff v).mp (same ▸ (apply_isId_iff w).mpr isId))
    rwa [apply_of_not_id left, apply_of_not_id right] at same

theorem wellFormed_of_isId {v : Value} (isId : v.isString = true ∨ v.isNumber = true) :
    v.wellFormed = true := by
  cases v <;> simp_all [Value.isString, Value.isNumber, Value.wellFormed]

theorem apply_wellFormed {v : Value} (formed : v.wellFormed = true) :
    (ρ.apply originator v).wellFormed = true := by
  by_cases isId : v.isString = true ∨ v.isNumber = true
  · exact wellFormed_of_isId ((apply_isId_iff v).mpr isId)
  · rwa [apply_of_not_id isId]

/-- Texts of ids are renamed one to one. -/
theorem renames_biUnique : Relator.BiUnique (ρ.Renames codec originator) := by
  constructor
  · intro x y z left right
    rcases left with ⟨v, formed, rfl, rfl⟩ | ⟨rfl, fresh⟩
    · rcases right with ⟨w, alsoFormed, rfl, same⟩ | ⟨rfl, fresh⟩
      · have equal := codec.toString_injective (apply_wellFormed alsoFormed) (apply_wellFormed formed) same
        rw [apply_injective equal]
      · exact absurd rfl (fresh _ (apply_wellFormed formed))
    · rcases right with ⟨w, alsoFormed, rfl, rfl⟩ | ⟨rfl, -⟩
      · exact absurd rfl (fresh _ (apply_wellFormed alsoFormed))
      · rfl
  · intro x y z left right
    rcases left with ⟨v, formed, rfl, rfl⟩ | ⟨rfl, fresh⟩
    · rcases right with ⟨w, alsoFormed, same, rfl⟩ | ⟨rfl, fresh⟩
      · rw [codec.toString_injective alsoFormed formed same]
      · exact absurd rfl (fresh v formed)
    · rcases right with ⟨w, alsoFormed, rfl, rfl⟩ | ⟨rfl, -⟩
      · exact absurd rfl (fresh w alsoFormed)
      · rfl

/-- Which request of one session is which of the other, by the side that responds. -/
def names (ρ : IdRenaming) (codec : Codec) : Names := fun k l =>
  k.1 = l.1 ∧ ρ.Renames codec k.1.opposite k.2 l.2

theorem names_biUnique : Relator.BiUnique (ρ.names codec) := by
  constructor
  · rintro ⟨d, x⟩ ⟨e, y⟩ ⟨f, z⟩ ⟨rfl, left⟩ ⟨sides, right⟩
    obtain rfl : e = d := sides
    exact Prod.ext rfl (renames_biUnique.1 left right)
  · rintro ⟨d, x⟩ ⟨e, y⟩ ⟨f, z⟩ ⟨rfl, left⟩ ⟨sides, right⟩
    obtain rfl : d = f := sides
    exact Prod.ext rfl (renames_biUnique.2 left right)

theorem names_at (side : Direction) (x y : String) :
    (ρ.names codec).At side x y ↔ ρ.Renames codec side.opposite x y := by
  simp [Names.At, names]

end Apply

/-! ## What a renaming leaves alone -/

section Payload
variable {ρ} {codec : Codec} {m n : StoredMessage} {side : Direction}

theorem applyPayload_notification (known : Direction.fromDbStr m.direction = some side)
    (kind : m.messageKind = "notification") (payload : Value) :
    ρ.applyPayload m payload = payload.update "params" (ρ.applyParams side m) := by
  simp [applyPayload, known, kind]

/-- Only the `id` and the `params` member of a payload can change. -/
theorem get_applyPayload {key : String} (notId : key ≠ "id") (notParams : key ≠ "params")
    (payload : Value) : (ρ.applyPayload m payload).get key = payload.get key := by
  unfold applyPayload
  split
  · exact Value.get_update_other notId payload
  · exact Value.get_update_other notId payload
  · exact Value.get_update_other notParams payload
  · rfl

theorem get_applyParams_other {key : String} (notRequest : key ≠ "requestId") (notMeta : key ≠ "_meta")
    (params : Value) : (ρ.applyParams side m params).get key = params.get key := by
  unfold applyParams
  dsimp only
  split_ifs <;> simp [Value.get_update_other, notRequest, notMeta]

theorem get_applyParams_requestId (cancels : m.method = some "notifications/cancelled")
    (params : Value) :
    (ρ.applyParams side m params).get "requestId" = (params.get "requestId").map (ρ.apply side) := by
  unfold applyParams
  simp only [cancels, if_true]
  split_ifs <;> simp [Value.get_update_other]

theorem get_applyParams_meta (side : Direction) (params : Value) :
    (ρ.applyParams side m params).get "_meta" =
      (params.get "_meta").map fun meta_ =>
        if side = .serverToClient ∧ m.method.isSome = true then
          meta_.update subscriptionKey (ρ.apply .clientToServer)
        else meta_ := by
  unfold applyParams
  dsimp only
  by_cases fromServer : side = .serverToClient ∧ m.method.isSome = true
  · simp only [fromServer, and_self, if_true, Value.get_update_same]
    split_ifs <;> simp [Value.get_update_other]
  · simp only [fromServer, if_false, Option.map_id_fun', id_eq]
    split_ifs <;> simp [Value.get_update_other]

theorem isObject_applyParams (params : Value) :
    (ρ.applyParams side m params).isObject = params.isObject := by
  unfold applyParams
  dsimp only
  split_ifs <;> simp

theorem applyParams_of_not_object {params : Value} (plain : params.isObject = false) :
    ρ.applyParams side m params = params := by
  unfold applyParams
  simp [Value.update_of_not_object plain]

/-- The text of a renamed id is the renamed text. -/
theorem idAt_renamed {path : List String} {originator : Direction} {v w : Option Value}
    (same : w.bind (Value.getPath path) = (v.bind (Value.getPath path)).map (ρ.apply originator)) :
    Option.Rel (ρ.Renames codec originator)
      (((v.bind (Value.getPath path)).filter fun id => id.isString || id.isNumber).map codec.toString)
      (((w.bind (Value.getPath path)).filter fun id => id.isString || id.isNumber).map codec.toString) := by
  rw [same]
  cases v.bind (Value.getPath path) with
  | none => exact .none
  | some id =>
      have kinds : ((ρ.apply originator id).isString = true ∨ (ρ.apply originator id).isNumber = true) ↔
          (id.isString = true ∨ id.isNumber = true) := apply_isId_iff id
      rw [← Bool.or_eq_true, ← Bool.or_eq_true, ← Bool.eq_iff_iff] at kinds
      simp only [Option.map_some, Option.filter_some, kinds]
      by_cases isId : (id.isString || id.isNumber) = true
      · simp only [isId, if_true, Option.map_some]
        exact .some (.inl ⟨id, wellFormed_of_isId (by simpa using isId), rfl, rfl⟩)
      · simp only [isId, Bool.false_eq_true, if_false, Option.map_none]
        exact .none

variable (renamed : ρ.Renamed codec m n)
include renamed

theorem Renamed.cancelledId (known : Direction.fromDbStr m.direction = some side)
    (kind : m.messageKind = "notification") :
    Option.Rel (ρ.Renames codec side) (cancelledId codec m) (cancelledId codec n) := by
  unfold Model.cancelledId
  rw [← renamed.method]
  split_ifs with cancels
  · refine idAt_renamed ?_
    rw [renamed.payload]
    cases codec.fromStr m.payload with
    | none => rfl
    | some v =>
        simp only [Option.map_some, Option.bind_some, applyPayload_notification known kind,
          Value.getPath_cons, Value.get_update_same]
        cases v.get "params" with
        | none => rfl
        | some params =>
            simp only [Option.map_some, Option.bind_some, Value.getPath_cons,
              get_applyParams_requestId cancels]
            cases params.get "requestId" <;> rfl
  · exact .none

theorem Renamed.subscriptionId (known : Direction.fromDbStr m.direction = some .serverToClient)
    (kind : m.messageKind = "notification") :
    Option.Rel (ρ.Renames codec .clientToServer) (subscriptionId codec m) (subscriptionId codec n) := by
  unfold Model.subscriptionId
  rw [← renamed.method]
  split_ifs with acknowledges
  · refine idAt_renamed ?_
    rw [renamed.payload]
    cases codec.fromStr m.payload with
    | none => rfl
    | some v =>
        simp only [Option.map_some, Option.bind_some, applyPayload_notification known kind,
          Value.getPath_cons, Value.get_update_same]
        cases v.get "params" with
        | none => rfl
        | some params =>
            simp only [Option.map_some, Option.bind_some, Value.getPath_cons, get_applyParams_meta,
              acknowledges, Option.isSome_some, and_self, if_true]
            cases params.get "_meta" with
            | none => rfl
            | some meta_ =>
                simp only [Option.map_some, Option.bind_some]
                rw [show "io.modelcontextprotocol/subscriptionId" = subscriptionKey from rfl,
                  Value.getPath_cons, Value.getPath_cons, Value.get_update_same]
                cases meta_.get subscriptionKey <;> rfl
  · exact .none

theorem Renamed.reportsToolError :
    Exchange.reportsToolError codec n = Exchange.reportsToolError codec m := by
  unfold Exchange.reportsToolError
  rw [renamed.payload]
  cases codec.fromStr m.payload with
  | none => rfl
  | some v =>
      have same : (ρ.applyPayload m v).getPath ["result", "isError"] = v.getPath ["result", "isError"] := by
        rw [Value.getPath_cons, Value.getPath_cons, get_applyPayload (by decide) (by decide)]
      simp only [Option.map_some, Option.bind_some, same]

/-- Renaming ids is a correspondence of messages. -/
theorem Renamed.corresponds : MessagesCorrespond codec (ρ.names codec) m n where
  seq := renamed.seq
  tsNs := renamed.tsNs
  direction := renamed.direction
  messageKind := renamed.messageKind
  method := renamed.method
  toolName := renamed.toolName
  isError := renamed.isError
  errorCode := renamed.errorCode
  request side known kind := option_rel_imp (renamed.request side known kind) fun _ _ named =>
    (names_at _ _ _).mpr (by simpa using named)
  response side known kind := option_rel_imp (renamed.response side known kind) fun _ _ named =>
    (names_at _ _ _).mpr named
  cancelled side known kind := option_rel_imp (renamed.cancelledId known kind) fun _ _ named =>
    (names_at _ _ _).mpr (by simpa using named)
  acknowledged known kind := option_rel_imp (renamed.subscriptionId known kind) fun _ _ named =>
    (names_at _ _ _).mpr named
  toolError _ reports := renamed.reportsToolError ▸ reports

end Payload

end IdRenaming

end McpTracer.Model
