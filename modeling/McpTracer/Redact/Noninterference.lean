import McpTracer.Foundation.Pointwise
import McpTracer.Redact.Validator

/-! What redaction hides and what it keeps.

At runtime two payloads that differ only under sensitive keys become one. Under either
context a payload differs from its redaction only under sensitive keys. The relation between
them descends through arrays and members that are not sensitive, so it also says that keys and
array lengths stay.
-/

set_option autoImplicit false

namespace McpTracer.Redact
open McpTracer.Foundation McpTracer.Json

/-- Two trees that differ only in the values of sensitive members, at any depth. -/
inductive SameOutside (sensitive : String → Bool) : Value → Value → Prop where
  | leaf (v : Value) : v.isArray = false → v.isObject = false → SameOutside sensitive v v
  | array (xs ys : List Value) (length : xs.length = ys.length)
      (items : ∀ pair ∈ xs.zip ys, SameOutside sensitive pair.1 pair.2) :
      SameOutside sensitive (.array xs) (.array ys)
  | object (fs gs : List (String × Value)) (keys : fs.map Prod.fst = gs.map Prod.fst)
      (members : ∀ pair ∈ fs.zip gs, sensitive pair.1.1 = false →
        SameOutside sensitive pair.1.2 pair.2.2) :
      SameOutside sensitive (.object fs) (.object gs)

section Walk
variable {sensitive : String → Bool}

theorem keys_aligned {fs gs : List (String × Value)} (keys : fs.map Prod.fst = gs.map Prod.fst) :
    ∀ pair ∈ fs.zip gs, pair.1.1 = pair.2.1 :=
  fun _ member => (List.forall₂_iff_zip.mp (map_eq_map_iff_forall₂.mp keys)).2 member

/-- Payloads that agree outside sensitive members are masked to one payload. -/
theorem maskWalk_eq_of_sameOutside {v w : Value} (same : SameOutside sensitive v w) :
    maskWalk sensitive (fun _ => placeholder) v = maskWalk sensitive (fun _ => placeholder) w := by
  induction same with
  | leaf v _ _ => rfl
  | array xs ys length _ ih =>
      simp only [maskWalk, maskItems_eq_map]
      rw [map_eq_map_of_zip length ih]
  | object fs gs keys _ ih =>
      have length : fs.length = gs.length := by simpa using congrArg List.length keys
      simp only [maskWalk, maskFields_eq_map]
      refine congrArg Value.object (map_eq_map_of_zip length fun pair member => ?_)
      have sameKey := keys_aligned keys pair member
      by_cases hidden : sensitive pair.1.1 = true
      · simp [maskMember, ← sameKey, hidden]
      · have shown : sensitive pair.1.1 = false := by simpa using hidden
        simp [maskMember, ← sameKey, shown, ih pair member shown]

theorem sameOutside_items {rewrite : Value → Value} {items : List Value}
    (each : ∀ item ∈ items, SameOutside sensitive item (rewrite item)) :
    SameOutside sensitive (.array items) (.array (items.map rewrite)) := by
  refine .array _ _ (List.length_map _).symm fun pair member => ?_
  obtain ⟨found, same⟩ := eq_of_mem_zip_map member
  rw [same]
  exact each _ found

theorem sameOutside_object {rewrite : String × Value → String × Value} {fields : List (String × Value)}
    (keys : ∀ field, (rewrite field).1 = field.1)
    (each : ∀ field ∈ fields, sensitive field.1 = false → SameOutside sensitive field.2 (rewrite field).2) :
    SameOutside sensitive (.object fields) (.object (fields.map rewrite)) := by
  refine .object _ _ (by simp [keys]) fun pair member shown => ?_
  obtain ⟨found, same⟩ := eq_of_mem_zip_map member
  rw [same]
  exact each _ found shown

theorem sameOutside_fields {rewrite : String × Value → Value} {fields : List (String × Value)}
    (each : ∀ field ∈ fields, sensitive field.1 = false → SameOutside sensitive field.2 (rewrite field)) :
    SameOutside sensitive (.object fields) (.object (fields.map fun field => (field.1, rewrite field))) :=
  sameOutside_object (fun _ => rfl) each

theorem SameOutside.refl (v : Value) : SameOutside sensitive v v := by
  induction v using Value.children with
  | array items ih => simpa using @sameOutside_items sensitive id items ih
  | object fields ih => simpa using @sameOutside_fields sensitive Prod.snd fields fun field member _ => ih field member
  | _ => exact .leaf _ rfl rfl

/-- Masking changes nothing outside sensitive members. -/
theorem sameOutside_maskWalk (v : Value) :
    SameOutside sensitive v (maskWalk sensitive (fun _ => placeholder) v) := by
  induction v using Value.children with
  | array items ih =>
      rw [maskWalk, maskItems_eq_map]
      exact sameOutside_items ih
  | object fields ih =>
      rw [maskWalk, maskFields_eq_map]
      refine sameOutside_fields fun field member shown => ?_
      simpa [maskMember, shown] using ih field member
  | _ => exact .leaf _ rfl rfl

theorem sameOutside_maskMember {key : String} (shown : sensitive key = false) (v : Value) :
    SameOutside sensitive v (maskMember sensitive (fun _ => placeholder) key v) := by
  simpa [maskMember, shown] using sameOutside_maskWalk v

/-- In the runtime context the message walk is the generic walk. -/
theorem maskMessage_runtime (mask : Value → Value) (v : Value) :
    maskMessage sensitive mask .runtime v = maskWalk sensitive mask v := by
  cases v with
  | object fields => simp [maskMessage, maskWalk, maskFields_eq_map, maskMember]
  | _ => rfl

end Walk

/-! ## Under the schema exemption -/

section Exemption
variable {sensitive : String → Bool}

/-- Every part of the schema walk changes nothing outside sensitive members, at one value. -/
structure Local (sensitive : String → Bool) (value : Value) : Prop where
  schema : SameOutside sensitive value
    (walkSchema sensitive (rewriting (maskMember sensitive fun _ => placeholder)) value ()).1
  nameMap : SameOutside sensitive value
    (walkNameMap sensitive (rewriting (maskMember sensitive fun _ => placeholder)) value ()).1
  schemaArray : ∀ key, sensitive key = false → SameOutside sensitive value
    (walkSchemaArray sensitive (rewriting (maskMember sensitive fun _ => placeholder)) key value ()).1
  dependencies : ∀ key, SameOutside sensitive value
    (walkDependencies sensitive (rewriting (maskMember sensitive fun _ => placeholder)) key value ()).1

theorem Local.member {child : Value} (inside : Local sensitive child) {key : String} (shown : sensitive key = false) :
    SameOutside sensitive child
      (walkMember sensitive (rewriting (maskMember sensitive fun _ => placeholder)) key child ()).1 := by
  unfold walkMember
  rw [shown, if_neg Bool.false_ne_true]
  split_ifs
  · exact inside.nameMap
  · exact inside.schema
  · exact inside.schemaArray key shown
  · exact inside.dependencies key
  · exact sameOutside_maskMember shown child

theorem Local.definition {definition : Value} (inside : Local sensitive definition) {name : String}
    (shown : sensitive name = false) : SameOutside sensitive definition
      (walkDefinition sensitive (rewriting (maskMember sensitive fun _ => placeholder)) name definition ()).1 := by
  unfold walkDefinition
  split_ifs
  · exact inside.schema
  · exact sameOutside_maskMember shown definition

theorem Local.dependency {definition : Value} (inside : Local sensitive definition) {key name : String}
    (shown : sensitive name = false) : SameOutside sensitive definition
      (walkDependency sensitive (rewriting (maskMember sensitive fun _ => placeholder)) key name definition ()).1 := by
  unfold walkDependency
  split_ifs
  · exact .refl definition
  · exact inside.schema
  · exact sameOutside_maskMember shown definition

/-- Values outside objects are visited under the empty name, which no policy masks. -/
theorem local_value (blank : sensitive "" = false) (value : Value) : Local sensitive value := by
  induction value using Value.children with
  | array items ih =>
    refine ⟨sameOutside_maskMember blank _, .refl _, fun key shown => ?_, fun _ => .refl _⟩
    simp only [walkSchemaArray, walkSchemaItems_eq_sweep, sweep_fst]
    exact sameOutside_items fun item member => (ih item member).definition shown
  | object fields ih =>
    refine ⟨?_, ?_, fun _ _ => .refl _, fun key => ?_⟩
    · simp only [walkSchema, walkSchemaMembers_eq_sweep, sweep_fst, named]
      exact sameOutside_fields fun field member shown => (ih field member).member shown
    · simp only [walkNameMap, walkDefinitions_eq_sweep, sweep_fst, named]
      exact sameOutside_fields fun field member shown => (ih field member).definition shown
    · simp only [walkDependencies, walkDependencyMembers_eq_sweep, sweep_fst, named]
      exact sameOutside_fields fun field member shown => (ih field member).dependency shown
  | bool b => exact ⟨.refl _, .refl _, fun _ _ => .refl _, fun _ => .refl _⟩
  | null | number _ | string _ =>
    exact ⟨sameOutside_maskMember blank _, .refl _, fun _ _ => .refl _, fun _ => .refl _⟩

theorem sameOutside_maskToolDefinition (blank : sensitive "" = false) (tool : Value) :
    SameOutside sensitive tool (maskToolDefinition sensitive (fun _ => placeholder) tool) := by
  cases tool with
  | object fields =>
    refine @sameOutside_fields sensitive (fun field => if sensitive field.1 then placeholder
      else if isMcpToolSchemaKey field.1 then maskSchema sensitive (fun _ => placeholder) field.2
      else maskWalk sensitive (fun _ => placeholder) field.2) fields fun field member shown => ?_
    rw [shown, if_neg Bool.false_ne_true]
    split_ifs
    · exact (local_value blank field.2).schema
    · exact sameOutside_maskWalk field.2
  | _ => exact sameOutside_maskWalk _

theorem sameOutside_maskResult (blank : sensitive "" = false) (result : Value) :
    SameOutside sensitive result (maskResult sensitive (fun _ => placeholder) result) := by
  cases result with
  | object fields =>
    unfold maskResult
    apply sameOutside_object
    · intro field
      rfl
    intro field member shown
    dsimp only
    cases field.1 = "tools" && !sensitive field.1 with
    | false => exact sameOutside_maskMember shown field.2
    | true =>
      cases field.2 with
      | array tools => exact sameOutside_items fun tool _ => sameOutside_maskToolDefinition blank tool
      | _ => exact sameOutside_maskMember shown _
  | _ => exact sameOutside_maskWalk _

theorem sameOutside_maskMessage (blank : sensitive "" = false) (context : RedactionContext) (message : Value) :
    SameOutside sensitive message (maskMessage sensitive (fun _ => placeholder) context message) := by
  cases message with
  | object fields =>
    refine @sameOutside_fields sensitive (fun field => if sensitive field.1 then placeholder
      else if field.1 = "result" && decide (context = .toolListResponse) then
        maskResult sensitive (fun _ => placeholder) field.2
      else maskWalk sensitive (fun _ => placeholder) field.2) fields fun field member shown => ?_
    rw [shown, if_neg Bool.false_ne_true]
    split_ifs
    · exact sameOutside_maskResult blank field.2
    · exact sameOutside_maskWalk field.2
  | _ => exact sameOutside_maskWalk _

end Exemption

theorem isSensitiveKey_blank (redactor : Redactor) : redactor.isSensitiveKey "" = false := by
  have blank : normalizeKey "" = "" := by decide +kernel
  simp [Redactor.isSensitiveKey, matchesPolicySensitiveKey, isSensitiveKey, blank]

/-- Redacting again without the exemption masks what the exemption kept, and nothing else. -/
theorem redactWithContext_runtime (redactor : Redactor) (v : Value) (context : RedactionContext) :
    redactor.redactWithContext (redactor.redactWithContext v context) .runtime =
      redactor.redactWithContext v .runtime := by
  unfold Redactor.redactWithContext
  split_ifs
  · simp only [Redactor.walkMessage, maskMessage_runtime]
    exact (maskWalk_eq_of_sameOutside
      (sameOutside_maskMessage (isSensitiveKey_blank redactor) context v)).symm
  · rfl

/-- Redaction forgets exactly the values of sensitive members. -/
theorem redactWithContext_noninterference (policy : RedactionPolicy) (active : policy ≠ .none) :
    (∀ v w, SameOutside (Redactor.new policy).isSensitiveKey v w →
      (Redactor.new policy).redactWithContext v .runtime =
        (Redactor.new policy).redactWithContext w .runtime) ∧
    ∀ v, SameOutside (Redactor.new policy).isSensitiveKey v
      ((Redactor.new policy).redactWithContext v .runtime) := by
  have isActive : (Redactor.new policy).isActive = true := by
    simpa [Redactor.isActive, Redactor.new] using active
  simp only [Redactor.redactWithContext, isActive, if_true, Redactor.walkMessage, maskMessage_runtime]
  exact ⟨fun v w same => maskWalk_eq_of_sameOutside same, sameOutside_maskWalk⟩

/-- Two requests whose tokens differ are recorded as one. -/
theorem redactWithContext_hides_token :
    (Redactor.new .default).redactWithContext
        (.object [("access_token", .string "a"), ("user", .string "u")]) .runtime =
      (Redactor.new .default).redactWithContext
        (.object [("access_token", .array []), ("user", .string "u")]) .runtime := by
  refine (redactWithContext_noninterference .default (by decide)).1 _ _ (.object _ _ rfl ?_)
  intro pair member shown
  simp only [List.zip_cons_cons, List.zip_nil_right, List.mem_cons, List.not_mem_nil, or_false] at member
  rcases member with rfl | rfl
  · exact absurd shown (by decide +kernel)
  · exact .leaf _ rfl rfl

end McpTracer.Redact
