import McpTracer.Storage.Transfer

/-! What the canonical identity of an artifact identifies.

Every field that counts as evidence can be read back from the identity. The
fields of a document are machine integers and payloads that were decoded, which
the types of the source guarantee and `Typed` states.
-/

set_option autoImplicit false

namespace McpTracer.Storage
open McpTracer.Json

/-! ## The ranges of the source -/

def IsI64 (n : Int) : Prop := -2 ^ 63 ≤ n ∧ n < 2 ^ 63

/-- A size is as wide as a sequence number on the platforms that are supported. -/
def IsU64 (n : Nat) : Prop := n < 2 ^ 64

structure MtraceSession.Typed (session : MtraceSession) : Prop where
  startedAtNs : IsI64 session.startedAtNs
  endedAtNs : ∀ time, session.endedAtNs = some time → IsI64 time
  droppedMessages : IsI64 session.droppedMessages

structure MtraceMessage.Typed (message : MtraceMessage) : Prop where
  seq : IsU64 message.seq
  tsNs : IsI64 message.tsNs
  payload : message.payload.wellFormed = true
  payloadBytes : IsU64 message.payloadBytes
  errorCode : ∀ code, message.errorCode = some code → IsI64 code

structure MtraceDocument.Typed (document : MtraceDocument) : Prop where
  version : document.version < 2 ^ 32
  session : document.session.Typed
  messages : ∀ message ∈ document.messages, message.Typed

/-! ## Fields read back from their values -/

/-- A number printed for a machine integer, signed or unsigned, is that of no other. -/
theorem integerValue_injective {m n : Int} (left : -2 ^ 63 ≤ m ∧ m < 2 ^ 64) (right : -2 ^ 63 ≤ n ∧ n < 2 ^ 64)
    (same : integerValue m = integerValue n) : m = n := by
  unfold integerValue at same
  cases m with
  | ofNat a =>
      cases n with
      | ofNat b =>
          have words : UInt64.ofNat a = UInt64.ofNat b := by simpa using same
          have equal := congrArg UInt64.toNat words
          simp only [UInt64.toNat_ofNat', Int.ofNat_eq_natCast] at equal left right ⊢
          omega
      | negSucc b => simp at same
  | negSucc a =>
      cases n with
      | ofNat b => simp at same
      | negSucc b =>
          have words : Fin.ofNat (2 ^ 63) a = Fin.ofNat (2 ^ 63) b := by simpa using same
          have equal := congrArg Fin.val words
          simp only [Fin.val_ofNat] at equal
          omega

theorem IsI64.machine {n : Int} (typed : IsI64 n) : -2 ^ 63 ≤ n ∧ n < 2 ^ 64 := by
  unfold IsI64 at typed
  omega

theorem IsU64.machine {n : Nat} (typed : IsU64 n) : -2 ^ 63 ≤ (n : Int) ∧ (n : Int) < 2 ^ 64 := by
  unfold IsU64 at typed
  omega

theorem IsI64.injective {m n : Int} (left : IsI64 m) (right : IsI64 n) (same : integerValue m = integerValue n) :
    m = n :=
  integerValue_injective left.machine right.machine same

theorem IsU64.injective {m n : Nat} (left : IsU64 m) (right : IsU64 n)
    (same : integerValue (m : Int) = integerValue (n : Int)) : m = n := by
  have equal := integerValue_injective left.machine right.machine same
  omega

theorem integerValue_ne_null (n : Int) : integerValue n ≠ .null := by
  unfold integerValue
  split <;> simp

/-- An absent number is not taken for a present one. -/
theorem optionalInteger_injective {m n : Option Int} (left : ∀ i, m = some i → IsI64 i)
    (right : ∀ i, n = some i → IsI64 i) (same : m.elim Value.null integerValue = n.elim .null integerValue) :
    m = n := by
  cases m with
  | none =>
      cases n with
      | none => rfl
      | some j => exact absurd same.symm (integerValue_ne_null j)
  | some i =>
      cases n with
      | none => exact absurd same (integerValue_ne_null i)
      | some j => rw [(left i rfl).injective (right j rfl) same]

theorem stringArray_injective {a b : List String} (same : stringArray a = stringArray b) : a = b :=
  (List.map_inj_right fun _ _ => Value.string.inj).1 (Value.array.inj same)

/-! ## Records read back from their values -/

theorem sessionValue_injective {a b : MtraceSession} (left : a.Typed) (right : b.Typed)
    (same : sessionValue a = sessionValue b) : a = b := by
  simp only [sessionValue, Value.object.injEq, List.cons.injEq, Prod.mk.injEq, true_and, and_true,
    Value.string.injEq] at same
  obtain ⟨client, dropped, ended, keys, policy, command, started, tags, transport⟩ := same
  have dropped := left.droppedMessages.injective right.droppedMessages dropped
  have ended := optionalInteger_injective left.endedAtNs right.endedAtNs ended
  have started := left.startedAtNs.injective right.startedAtNs started
  have keys := stringArray_injective keys
  have tags := stringArray_injective tags
  cases a
  cases b
  simp_all only

theorem messageValue_injective {a b : MtraceMessage} (left : a.Typed) (right : b.Typed)
    (same : messageValue a = messageValue b) : a = b := by
  simp only [messageValue, Value.object.injEq, List.cons.injEq, Prod.mk.injEq, true_and, and_true,
    Value.string.injEq, Value.bool.injEq] at same
  obtain ⟨direction, code, failed, kind, method, payload, size, rpcId, seq, toolName, time⟩ := same
  have code := optionalInteger_injective left.errorCode right.errorCode code
  have size := left.payloadBytes.injective right.payloadBytes size
  have seq := left.seq.injective right.seq seq
  have time := left.tsNs.injective right.tsNs time
  have method := optionValue_injective method
  have rpcId := optionValue_injective rpcId
  have toolName := optionValue_injective toolName
  cases a
  cases b
  simp_all only

theorem messageValues_injective {as bs : List MtraceMessage} (left : ∀ message ∈ as, message.Typed)
    (right : ∀ message ∈ bs, message.Typed) (same : as.map messageValue = bs.map messageValue) : as = bs := by
  induction as generalizing bs with
  | nil => simpa using same.symm
  | cons a as ih =>
      cases bs with
      | nil => simp at same
      | cons b bs =>
          obtain ⟨first, others⟩ := List.forall_mem_cons.1 left
          obtain ⟨second, remaining⟩ := List.forall_mem_cons.1 right
          obtain ⟨head, tail⟩ := List.cons.inj same
          rw [messageValue_injective first second head, ih others remaining tail]

/-! ## The identity is a tree that a decoder could yield -/

theorem integerValue_wellFormed (n : Int) : (integerValue n).wellFormed = true := by
  unfold integerValue
  split <;> rfl

theorem optionalInteger_wellFormed (n : Option Int) : (n.elim Value.null integerValue).wellFormed = true := by
  cases n with
  | none => rfl
  | some n => exact integerValue_wellFormed n

theorem optionValue_wellFormed (text : Option String) : (optionValue text).wellFormed = true := by
  cases text <;> rfl

theorem stringArray_wellFormed (items : List String) : (stringArray items).wellFormed = true := by
  simp [stringArray, Value.wellFormed]

theorem sessionValue_wellFormed (session : MtraceSession) : (sessionValue session).wellFormed = true := by
  have sorted : ["client", "dropped_messages", "ended_at_ns", "redaction_keys", "redaction_policy", "server_command",
    "started_at_ns", "tags", "transport"].Pairwise (· < ·) := by decide
  simp only [sessionValue, Value.wellFormed, Value.wellFormedFields, List.map_cons, List.map_nil, sorted,
    integerValue_wellFormed, optionalInteger_wellFormed, stringArray_wellFormed, decide_true, Bool.and_self]

theorem messageValue_wellFormed {message : MtraceMessage} (typed : message.Typed) :
    (messageValue message).wellFormed = true := by
  have sorted : ["direction", "error_code", "is_error", "message_kind", "method", "payload", "payload_bytes", "rpc_id",
    "seq", "tool_name", "ts_ns"].Pairwise (· < ·) := by decide
  simp only [messageValue, Value.wellFormed, Value.wellFormedFields, List.map_cons, List.map_nil, sorted,
    integerValue_wellFormed, optionalInteger_wellFormed, optionValue_wellFormed, typed.payload, decide_true,
    Bool.and_self]

/-- The tree whose text is the identity. -/
def identityValue (document : MtraceDocument) : Value :=
  .object [
    ("format", .string document.format),
    ("messages", .array (document.messages.map messageValue)),
    ("session", sessionValue document.session),
    ("version", integerValue document.version)]

theorem identityValue_wellFormed {document : MtraceDocument} (typed : document.Typed) :
    (identityValue document).wellFormed = true := by
  have sorted : ["format", "messages", "session", "version"].Pairwise (· < ·) := by decide
  have messages : Value.wellFormedItems (document.messages.map messageValue) = true := by
    rw [Value.wellFormedItems_iff, List.forall_mem_map]
    exact fun message member => messageValue_wellFormed (typed.messages message member)
  simp only [identityValue, Value.wellFormed, Value.wellFormedFields, List.map_cons, List.map_nil, sorted, messages,
    sessionValue_wellFormed, integerValue_wellFormed, decide_true, Bool.and_self]

/-- Two artifacts have one identity exactly when they agree in all that counts as evidence. -/
theorem canonicalIdentityBytes_eq_iff (codec : Codec) {first second : MtraceDocument} (left : first.Typed)
    (right : second.Typed) :
    canonicalIdentityBytes codec first = canonicalIdentityBytes codec second ↔
      first.format = second.format ∧ first.version = second.version ∧ first.session = second.session ∧
        first.messages = second.messages := by
  constructor
  · intro same
    have trees : identityValue first = identityValue second :=
      codec.toString_injective (identityValue_wellFormed left) (identityValue_wellFormed right) same
    simp only [identityValue, Value.object.injEq, List.cons.injEq, Prod.mk.injEq, true_and, and_true,
      Value.string.injEq, Value.array.injEq] at trees
    obtain ⟨format, messages, session, version⟩ := trees
    have narrow : IsU64 first.version := by have := left.version; unfold IsU64; omega
    have narrow' : IsU64 second.version := by have := right.version; unfold IsU64; omega
    exact ⟨format, narrow.injective narrow' version, sessionValue_injective left.session right.session session,
      messageValues_injective left.messages right.messages messages⟩
  · rintro ⟨format, version, session, messages⟩
    simp only [canonicalIdentityBytes, format, version, session, messages]

theorem maskedArtifact_typed : maskedArtifact.Typed where
  version := by decide
  session := ⟨⟨by decide, by decide⟩, fun _ impossible => (by cases impossible), ⟨by decide, by decide⟩⟩
  messages := by
    intro message member
    obtain rfl := List.mem_singleton.1 member
    exact ⟨by unfold IsU64; decide, ⟨by decide, by decide⟩, by decide, by unfold IsU64; decide,
      fun _ impossible => (by cases impossible)⟩

/-- Exporting again does not change the identity, dropping the message does. -/
theorem canonicalIdentityBytes_masked :
    canonicalIdentityBytes Compact.codec { maskedArtifact with exportedAtNs := 8 } =
        canonicalIdentityBytes Compact.codec maskedArtifact ∧
      canonicalIdentityBytes Compact.codec { maskedArtifact with messages := [] } ≠
        canonicalIdentityBytes Compact.codec maskedArtifact := by
  have again : MtraceDocument.Typed { maskedArtifact with exportedAtNs := 8 } :=
    ⟨maskedArtifact_typed.version, maskedArtifact_typed.session, maskedArtifact_typed.messages⟩
  have truncated : MtraceDocument.Typed { maskedArtifact with messages := [] } :=
    ⟨maskedArtifact_typed.version, maskedArtifact_typed.session, by simp⟩
  constructor
  · exact (canonicalIdentityBytes_eq_iff Compact.codec again maskedArtifact_typed).2 ⟨rfl, rfl, rfl, rfl⟩
  · intro same
    have agree := (canonicalIdentityBytes_eq_iff Compact.codec truncated maskedArtifact_typed).1 same
    cases agree.2.2.2

end McpTracer.Storage
