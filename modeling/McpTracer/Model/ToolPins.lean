import McpTracer.Model.Assertions
import McpTracer.Model.MirroredDiff

/-! Pinned tool definitions.

A pin is a hash of the whole definition, in which an absent member is written as null. The diff compares the
members one by one as they are. Both tell the same changes apart from two kinds, a member that is null on one
side and absent on the other, and a zero that changes its sign.
-/

set_option autoImplicit false

namespace McpTracer.Model
open McpTracer.Foundation McpTracer.Json McpTracer.Protocol McpTracer.Storage

section Pins
variable {codec : Codec} {sha256Hex : String → String}

theorem pinFailure_eq_none_iff (tools : List (String × ToolDef)) (pin : String × String) :
    pinFailure codec sha256Hex tools pin = none ↔
      ∃ tool, tools.lookup pin.1 = some tool ∧ toolHash codec sha256Hex pin.1 tool = pin.2 := by
  unfold pinFailure
  cases tools.lookup pin.1 with
  | none => simp
  | some tool => simp

theorem toolsPinned_passed_iff (hashes : List (String × String)) (tools : List (String × ToolDef)) :
    (toolsPinned codec sha256Hex hashes tools).passed = true ↔ hashes ≠ [] ∧
      ∀ pin ∈ hashes, ∃ tool, tools.lookup pin.1 = some tool ∧ toolHash codec sha256Hex pin.1 tool = pin.2 := by
  unfold toolsPinned
  cases hashes with
  | nil =>
    rw [if_pos List.isEmpty_nil]
    split_ifs <;> simp
  | cons pin rest =>
    rw [if_neg (by simp)]
    simp only [List.isEmpty_iff, List.filterMap_eq_nil_iff, pinFailure_eq_none_iff, ne_eq, reduceCtorEq,
      not_false_eq_true, true_and]

end Pins

/-! ## The two detectors -/

/-- The definitions have the same identity. -/
structure SameIdentity (a b : ToolDef) : Prop where
  title : a.title = b.title
  description : a.description = b.description
  inputSchema : a.inputSchema.getD .null = b.inputSchema.getD .null
  outputSchema : a.outputSchema.getD .null = b.outputSchema.getD .null
  annotations : a.annotations.getD .null = b.annotations.getD .null

/-- The definitions differ, but only in members that are null on one side and absent on the other. -/
def DifferOnlyInNull (a b : ToolDef) : Prop := a ≠ b ∧ SameIdentity a b

/-- The definitions differ, but their members are equal, so that only zeros differ in their sign. -/
def DifferOnlyInZeroSign (a b : ToolDef) : Prop := a ≠ b ∧ SameTool a b

theorem toolIdentity_eq_iff {name : String} {a b : ToolDef} : toolIdentity name a = toolIdentity name b ↔ SameIdentity a b := by
  constructor
  · intro same
    simp only [toolIdentity, Value.object.injEq, List.cons.injEq, Prod.mk.injEq, true_and, and_true] at same
    obtain ⟨annotations, description, input, output, title⟩ := same
    exact ⟨optionValue_injective title, optionValue_injective description, input, output, annotations⟩
  · intro same
    rw [toolIdentity, toolIdentity, same.title, same.description, same.inputSchema, same.outputSchema, same.annotations]

theorem eq_of_both {x y : Option Value} (equal : (x == y) = true) (same : x.getD .null = y.getD .null) : x = y := by
  cases x with
  | none => cases y with
    | none => rfl
    | some w => cases equal
  | some v => cases y with
    | none => cases equal
    | some w => exact congrArg some same

/-- Definitions that are the same to both detectors are the same. -/
theorem SameIdentity.eq {a b : ToolDef} (identity : SameIdentity a b) (same : SameTool a b) : a = b := by
  obtain ⟨title, description, input, output, annotations⟩ := a
  have inputs := eq_of_both same.inputSchema identity.inputSchema
  have outputs := eq_of_both same.outputSchema identity.outputSchema
  have hints := eq_of_both same.annotations identity.annotations
  obtain rfl := same.title
  obtain rfl := same.description
  cases inputs
  cases outputs
  cases hints
  rfl

theorem SameTool.of_eq {a b : ToolDef} (same : a = b) : SameTool a b := same ▸ SameTool.refl a

/-- Two detectors agree where the definitions are the same to both or to neither. -/
theorem detectors_agree_iff (a b : ToolDef) :
    (SameTool a b ↔ SameIdentity a b) ↔ ¬ DifferOnlyInNull a b ∧ ¬ DifferOnlyInZeroSign a b := by
  constructor
  · intro agree
    refine ⟨fun differ => differ.1 ?_, fun differ => differ.1 ?_⟩
    · exact differ.2.eq (agree.2 differ.2)
    · exact (agree.1 differ.2).eq differ.2
  · rintro ⟨notNull, notSign⟩
    constructor
    · intro same
      have equal : a = b := by
        by_contra differ
        exact notSign ⟨differ, same⟩
      subst equal
      exact ⟨rfl, rfl, rfl, rfl, rfl⟩
    · intro identity
      have equal : a = b := by
        by_contra differ
        exact notNull ⟨differ, identity⟩
      exact .of_eq equal

/-- The security section does not mention the tool. -/
def ToolDrift.Silent (drift : ToolDrift) (name : String) : Prop := ∀ finding ∈ drift.security, finding.tool ≠ name

section Catalogs
variable {as bs : List (String × ToolDef)} {name : String} {a b : ToolDef}

theorem silent_iff (unique : (bs.map Prod.fst).Nodup) (before : as.lookup name = some a) (after : bs.lookup name = some b) :
    (diffTools as bs).Silent name ↔ SameTool a b := by
  rw [← toolFindings_eq_nil_iff name, List.eq_nil_iff_forall_not_mem]
  constructor
  · intro silent finding found
    obtain ⟨rfl, change⟩ := toolFindings_tool found
    exact silent finding ((mem_security_iff unique change).2 ⟨a, b, before, after, found⟩) rfl
  · rintro quiet finding reported rfl
    rcases List.mem_append.1 reported with current | removed
    · obtain ⟨⟨other, definition⟩, member, found⟩ := List.mem_flatMap.1 current
      dsimp only at found
      split at found
      · -- a tool that was added was not there before
        rename_i absent
        obtain rfl := List.mem_singleton.1 found
        rw [before] at absent
        cases absent
      · rename_i earlier known
        obtain ⟨rfl, -⟩ := toolFindings_tool found
        obtain rfl : a = earlier := Option.some.inj (before.symm.trans known)
        obtain rfl : b = definition :=
          Option.some.inj (after.symm.trans ((lookup_eq_some_iff unique _ _).2 member))
        exact quiet finding found
    · obtain ⟨other, gone, rfl⟩ := List.mem_map.1 removed
      obtain ⟨tool, missing, rfl⟩ := List.mem_map.1 gone
      have absent := (List.mem_filter.1 missing).2
      rw [after] at absent
      cases absent

end Catalogs

theorem optionValue_wellFormed (text : Option String) : (optionValue text).wellFormed = true := by
  cases text <;> rfl

/-- What is hashed of a listed tool is a tree that can be decoded. -/
theorem toolIdentity_wellFormed {codec : Codec} {messages : List StoredMessage} {name : String} {tool : ToolDef}
    (listed : (extractTools codec messages).lookup name = some tool) : (toolIdentity name tool).wellFormed = true := by
  obtain ⟨source, formed, rfl⟩ := mem_extractTools (mem_of_lookup listed)
  have member (key : String) : ((source.get key).getD .null).wellFormed = true := by
    cases found : source.get key with
    | none => rfl
    | some v => exact Value.wellFormed_get formed found
  have keys : ((["annotations", "description", "inputSchema", "name", "outputSchema", "title"] : List String).Pairwise
      (· < ·)) := by decide
  rw [toolIdentity, Value.wellFormed, Bool.and_eq_true, decide_eq_true_eq, Value.wellFormedFields_iff]
  refine ⟨keys, ?_⟩
  simp only [List.forall_mem_cons, ToolDef.ofValue, member, optionValue_wellFormed, Value.wellFormed]
  simp

section Detectors
variable {codec : Codec} {sha256Hex : String → String} {as bs : List StoredMessage} {name : String} {a b : ToolDef}

theorem toolHash_eq_iff (before : (extractTools codec as).lookup name = some a)
    (after : (extractTools codec bs).lookup name = some b)
    (collisionFree : toolHash codec sha256Hex name a = toolHash codec sha256Hex name b →
      toolIdentityCanonical codec name a = toolIdentityCanonical codec name b) :
    toolHash codec sha256Hex name a = toolHash codec sha256Hex name b ↔ SameIdentity a b := by
  have identity : toolIdentity name a = toolIdentity name b ↔ SameIdentity a b := toolIdentity_eq_iff
  rw [← identity]
  constructor
  · intro same
    exact codec.toString_injective (toolIdentity_wellFormed before) (toolIdentity_wellFormed after) (collisionFree same)
  · intro same
    rw [toolHash, toolHash, toolIdentityCanonical, toolIdentityCanonical, same]

/-- The diff is silent on a tool exactly when its pin holds, unless its definitions differ only in null members or
only in the signs of zeros. -/
theorem tool_detectors_agree_iff (before : (extractTools codec as).lookup name = some a)
    (after : (extractTools codec bs).lookup name = some b)
    (collisionFree : toolHash codec sha256Hex name a = toolHash codec sha256Hex name b →
      toolIdentityCanonical codec name a = toolIdentityCanonical codec name b) :
    (((diffTools (extractTools codec as) (extractTools codec bs)).Silent name ↔
        toolHash codec sha256Hex name a = toolHash codec sha256Hex name b) ↔
      ¬ DifferOnlyInNull a b ∧ ¬ DifferOnlyInZeroSign a b) ∧
    (((toolsPinned codec sha256Hex [(name, toolHash codec sha256Hex name a)] (extractTools codec bs)).passed = true ↔
        (diffTools (extractTools codec as) (extractTools codec bs)).Silent name) ↔
      ¬ DifferOnlyInNull a b ∧ ¬ DifferOnlyInZeroSign a b) := by
  have silent := silent_iff (extractTools_nodup codec bs) before after
  have hashed := toolHash_eq_iff before after collisionFree
  have pinned : (toolsPinned codec sha256Hex [(name, toolHash codec sha256Hex name a)] (extractTools codec bs)).passed =
      true ↔ SameIdentity a b := by
    rw [toolsPinned_passed_iff, ← hashed]
    simp [after, eq_comm]
  rw [silent, hashed, pinned]
  exact ⟨detectors_agree_iff a b, iff_comm.trans (detectors_agree_iff a b)⟩

end Detectors

/-! ## Listed definitions -/

/-- A session that lists one tool. -/
def contractListing (fields : List (String × Value)) : List StoredMessage :=
  [McpMessage.mk 0 0 .clientToServer
      (.object [("id", .number (.posInt 1)), ("method", .string "tools/list")]) 0,
    McpMessage.mk 1 5 .serverToClient
      (.object [("id", .number (.posInt 1)), ("result", .object [("tools", .array [.object fields])])]) 0].map
    (StoredMessage.ofMessage Compact.codec)

def bareEcho : List (String × Value) := [("inputSchema", .object []), ("name", .string "echo")]

def annotatedEcho (annotations : Value) : List (String × Value) := ("annotations", annotations) :: bareEcho

def echoContract (annotations : Option Value) : ToolDef := ⟨none, none, some (.object []), none, annotations⟩

theorem lookup_bareEcho : (extractTools Compact.codec (contractListing bareEcho)).lookup "echo" =
    some (echoContract none) := by decide +kernel

def readOnly : Value := .object [("readOnlyHint", .bool true)]

/-- A hint that is zero, with its sign. -/
def zeroHint (bits : BitVec 64) (finite : bits.extractLsb' 52 11 ≠ BitVec.allOnes 11) : Value :=
  .object [("rank", .number (.float ⟨bits, finite⟩))]

def positiveZero : Value := zeroHint 0 (by decide)

def negativeZero : Value := zeroHint (1 <<< 63) (by decide)

theorem lookup_annotatedEcho : ∀ annotations ∈ [readOnly, .null, positiveZero, negativeZero],
    (extractTools Compact.codec (contractListing (annotatedEcho annotations))).lookup "echo" =
      some (echoContract (some annotations)) := by decide +kernel

theorem lookup_readOnly : (extractTools Compact.codec (contractListing (annotatedEcho readOnly))).lookup "echo" =
    some (echoContract (some readOnly)) := lookup_annotatedEcho _ (by simp)

/-- The two digests that the pins of these tools need. -/
def echoDigest (text : String) : String :=
  if text = toolIdentityCanonical Compact.codec "echo" (echoContract none) then
    "23cb2d5daec9238a19104062d632ef95d9b82442e91f95a91924b7b62073a192"
  else if text = toolIdentityCanonical Compact.codec "echo" (echoContract (some readOnly)) then
    "32a7a2e75bf895a82a240da69efabb7b7a8ca2901405311ef066b7e4fc85c7df"
  else text

theorem tool_detectors_agree_readOnly :
    ((diffTools (extractTools Compact.codec (contractListing bareEcho))
        (extractTools Compact.codec (contractListing (annotatedEcho readOnly)))).Silent "echo" ↔
      toolHash Compact.codec echoDigest "echo" (echoContract none) =
        toolHash Compact.codec echoDigest "echo" (echoContract (some readOnly))) := by
  have differ : toolHash Compact.codec echoDigest "echo" (echoContract none) ≠
      toolHash Compact.codec echoDigest "echo" (echoContract (some readOnly)) := by decide +kernel
  refine (tool_detectors_agree_iff lookup_bareEcho lookup_readOnly fun same => absurd same differ).1.2 ⟨?_, ?_⟩
  · intro null
    exact absurd null.2.annotations (by decide +kernel)
  · intro sign
    exact absurd sign.2.annotations (by decide +kernel)

theorem lookup_nullEcho : (extractTools Compact.codec (contractListing (annotatedEcho .null))).lookup "echo" =
    some (echoContract (some .null)) := lookup_annotatedEcho _ (by simp)

theorem lookup_positiveZero : (extractTools Compact.codec (contractListing (annotatedEcho positiveZero))).lookup "echo" =
    some (echoContract (some positiveZero)) := lookup_annotatedEcho _ (by simp)

theorem lookup_negativeZero : (extractTools Compact.codec (contractListing (annotatedEcho negativeZero))).lookup "echo" =
    some (echoContract (some negativeZero)) := lookup_annotatedEcho _ (by simp)

/-- Annotations that become null are reported with the pin unchanged, and a zero that changes its sign changes the pin
with nothing reported. -/
theorem tool_detectors_disagree :
    (¬ ∀ (sha256Hex : String → String) (as bs : List StoredMessage) (name : String) (a b : ToolDef),
      (extractTools Compact.codec as).lookup name = some a → (extractTools Compact.codec bs).lookup name = some b →
      (toolHash Compact.codec sha256Hex name a = toolHash Compact.codec sha256Hex name b →
        toolIdentityCanonical Compact.codec name a = toolIdentityCanonical Compact.codec name b) →
      ((diffTools (extractTools Compact.codec as) (extractTools Compact.codec bs)).Silent name ↔
        toolHash Compact.codec sha256Hex name a = toolHash Compact.codec sha256Hex name b)) ∧
    (diffTools (extractTools Compact.codec (contractListing (annotatedEcho positiveZero)))
        (extractTools Compact.codec (contractListing (annotatedEcho negativeZero)))).Silent "echo" ∧
      toolIdentityCanonical Compact.codec "echo" (echoContract (some positiveZero)) ≠
        toolIdentityCanonical Compact.codec "echo" (echoContract (some negativeZero)) := by
  refine ⟨fun agree => ?_, ?_, by decide +kernel⟩
  · have silent := (agree id _ _ "echo" _ _ lookup_bareEcho lookup_nullEcho fun same => same).2 rfl
    have same := (silent_iff (extractTools_nodup _ _) lookup_bareEcho lookup_nullEcho).1 silent
    cases same.annotations
  · rw [silent_iff (extractTools_nodup _ _) lookup_positiveZero lookup_negativeZero]
    exact ⟨rfl, rfl, rfl, rfl, by decide +kernel⟩

end McpTracer.Model
