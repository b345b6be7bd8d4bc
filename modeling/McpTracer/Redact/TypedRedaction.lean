import Mathlib.Data.Set.Basic
import McpTracer.Json.Pointer
import McpTracer.Redact.Validator

/-! Redaction that keeps the types of what it masks.

The walks that put the placeholder everywhere and those that put a neutral value of the same type take the same
way through a payload. So what the mask puts in a place is left open here, and a place is masked if it then has
whatever the mask says.
-/

set_option autoImplicit false

namespace McpTracer.Redact
open McpTracer.Foundation McpTracer.Json

/-! ## Types and places -/

inductive JsonType where
  | null
  | bool
  | number
  | string
  | array
  | object
  deriving DecidableEq

def jsonType : Value → JsonType
  | .null => .null
  | .bool _ => .bool
  | .number _ => .number
  | .string _ => .string
  | .array _ => .array
  | .object _ => .object

/-- What a value is, without what is inside of it. -/
def surface : Value → Value
  | .array items => .array (items.map fun _ => .null)
  | .object fields => .object (fields.map fun field => (field.1, .null))
  | v => v

/-- One value is another with some positions masked, and is as the other everywhere else. -/
structure MaskedAt (mask : Value → Value) (positions : Set (List String)) (v w : Value) : Prop where
  masked : ∀ position ∈ positions, ∃ x, v.resolve position = some x ∧ w.resolve position = some (mask x)
  elsewhere : ∀ position, (∀ hidden ∈ positions, ¬ hidden <+: position) →
    (w.resolve position).map surface = (v.resolve position).map surface

/-- The positions that hold what the mask says, whatever it says. -/
def positionsOf (walk : (Value → Value) → Value) (v : Value) : Set (List String) :=
  { position | ∃ x, v.resolve position = some x ∧ ∀ mask, (walk mask).resolve position = some (mask x) }

/-- A walk that masks a value, or leaves it as it is, or does so for all that is inside. -/
inductive Masking : Value → ((Value → Value) → Value) → Prop where
  | masked (v : Value) : Masking v fun mask => mask v
  | kept (v : Value) : Masking v fun _ => v
  | array (items : List Value) (walk : Value → (Value → Value) → Value)
      (inside : ∀ item ∈ items, Masking item (walk item)) :
      Masking (.array items) fun mask => .array (items.map fun item => walk item mask)
  | object (fields : List (String × Value)) (walk : String × Value → (Value → Value) → Value)
      (inside : ∀ field ∈ fields, Masking field.2 (walk field)) :
      Masking (.object fields) fun mask => .object (fields.map fun field => (field.1, walk field mask))

theorem jsonType_surface (v : Value) : jsonType (surface v) = jsonType v := by cases v <;> rfl

theorem surface_array (items : List Value) (rewrite : Value → Value) :
    surface (.array (items.map rewrite)) = surface (.array items) := by
  rw [surface, surface, List.map_map]
  rfl

theorem surface_object (fields : List (String × Value)) (rewrite : String × Value → Value) :
    surface (.object (fields.map fun field => (field.1, rewrite field))) = surface (.object fields) := by
  rw [surface, surface, List.map_map]
  rfl

theorem child_map_items (rewrite : Value → Value) (items : List Value) (token : String) :
    Value.child token (.array (items.map rewrite)) = (Value.child token (.array items)).map rewrite := by
  unfold Value.child
  cases Pointer.arrayIndex token with
  | none => rfl
  | some index => exact List.getElem?_map

theorem child_map_fields (rewrite : String × Value → Value) (fields : List (String × Value)) (key : String) :
    Value.child key (.object (fields.map fun field => (field.1, rewrite field))) =
      (Value.child key (.object fields)).map fun child => rewrite (key, child) :=
  Value.lookup_map_members (fun name child => rewrite (name, child)) fields key

/-- What is masked inside a member is masked. -/
theorem mem_positionsOf_cons {v x : Value} {walk inner : (Value → Value) → Value} {token : String}
    {position : List String} (found : v.child token = some x)
    (walked : ∀ mask, (walk mask).child token = some (inner mask)) (hidden : position ∈ positionsOf inner x) :
    token :: position ∈ positionsOf walk v := by
  obtain ⟨y, there, masks⟩ := hidden
  refine ⟨y, ?_, fun mask => ?_⟩
  · rw [Value.resolve_cons, found, Option.bind_some, there]
  · rw [Value.resolve_cons, walked, Option.bind_some, masks]

/-- What holds inside a member holds at its positions. -/
theorem elsewhere_cons {v x : Value} {walk inner : (Value → Value) → Value} {token : String} {rest : List String}
    {mask : Value → Value} (found : v.child token = some x)
    (walked : ∀ mask, (walk mask).child token = some (inner mask))
    (shown : ∀ hidden ∈ positionsOf walk v, ¬ hidden <+: token :: rest)
    (ih : ∀ position, (∀ hidden ∈ positionsOf inner x, ¬ hidden <+: position) →
      ((inner mask).resolve position).map surface = (x.resolve position).map surface) :
    ((walk mask).resolve (token :: rest)).map surface = (v.resolve (token :: rest)).map surface := by
  rw [Value.resolve_cons, Value.resolve_cons, walked, found]
  refine ih rest fun hidden member before => ?_
  exact shown (token :: hidden) (mem_positionsOf_cons found walked member) (List.cons_prefix_cons.2 ⟨rfl, before⟩)

theorem Masking.elsewhere {v : Value} {walk : (Value → Value) → Value} (masking : Masking v walk)
    (mask : Value → Value) (position : List String) (shown : ∀ hidden ∈ positionsOf walk v, ¬ hidden <+: position) :
    ((walk mask).resolve position).map surface = (v.resolve position).map surface := by
  induction masking generalizing position with
  | masked v => exact absurd List.nil_prefix (shown [] ⟨v, rfl, fun _ => rfl⟩)
  | kept v => rfl
  | array items walk _ ih =>
    cases position with
    | nil => exact congrArg some (surface_array items _)
    | cons token rest =>
      cases found : Value.child token (.array items) with
      | none =>
        rw [Value.resolve_cons, Value.resolve_cons, child_map_items, found]
        rfl
      | some item =>
        have walked (mask : Value → Value) : Value.child token (.array (items.map fun item => walk item mask)) =
            some (walk item mask) := by
          rw [child_map_items, found]
          rfl
        obtain ⟨index, -, there⟩ := Value.child_array_eq_some_iff.1 found
        exact elsewhere_cons found walked shown (ih item (List.mem_of_getElem? there))
  | object fields walk _ ih =>
    cases position with
    | nil => exact congrArg some (surface_object fields _)
    | cons key rest =>
      cases found : Value.child key (.object fields) with
      | none =>
        rw [Value.resolve_cons, Value.resolve_cons, child_map_fields, found]
        rfl
      | some child =>
        have walked (mask : Value → Value) :
            Value.child key (.object (fields.map fun field => (field.1, walk field mask))) =
              some (walk (key, child) mask) := by
          rw [child_map_fields, found]
          rfl
        exact elsewhere_cons found walked shown (ih (key, child) (mem_of_lookup found))

/-- Only the positions that a walk masks depend on the mask, and they hold what it says. -/
theorem Masking.maskedAt {v : Value} {walk : (Value → Value) → Value} (masking : Masking v walk)
    (mask : Value → Value) : MaskedAt mask (positionsOf walk v) v (walk mask) where
  masked := fun _ ⟨x, there, masks⟩ => ⟨x, there, masks mask⟩
  elsewhere := masking.elsewhere mask

theorem resolve_append (front back : List String) (v : Value) :
    v.resolve (front ++ back) = (v.resolve front).bind (Value.resolve back) := by
  induction front generalizing v with
  | nil => rfl
  | cons token rest ih =>
    rw [List.cons_append, Value.resolve_cons, Value.resolve_cons, Option.bind_assoc]
    exact congrArg _ (funext ih)

/-- The neutral values have no members, so each position in them is their own. -/
theorem resolve_redactValueTyped {v x : Value} {position : List String}
    (found : (redactValueTyped v).resolve position = some x) : position = [] ∧ jsonType x = jsonType v := by
  cases position with
  | nil =>
    cases found
    refine ⟨rfl, ?_⟩
    cases v <;> rfl
  | cons token rest =>
    have none : (redactValueTyped v).child token = none := by
      cases v with
      | array items =>
        change (Pointer.arrayIndex token).bind _ = none
        cases Pointer.arrayIndex token <;> rfl
      | _ => rfl
    rw [Value.resolve_cons, none] at found
    cases found

/-- A value with neutral values in it has the type of the original wherever it has one. -/
theorem MaskedAt.sameTypes {positions : Set (List String)} {v w : Value}
    (masked : MaskedAt redactValueTyped positions v w) {position : List String} {x : Value}
    (found : w.resolve position = some x) : ∃ y, v.resolve position = some y ∧ jsonType y = jsonType x := by
  by_cases hidden : ∃ above ∈ positions, above <+: position
  · obtain ⟨above, member, rest, rfl⟩ := hidden
    obtain ⟨y, there, neutral⟩ := masked.masked above member
    rw [resolve_append, neutral, Option.bind_some] at found
    obtain ⟨rfl, same⟩ := resolve_redactValueTyped found
    exact ⟨y, by rwa [List.append_nil], same.symm⟩
  · have same := masked.elsewhere position fun above member before => hidden ⟨above, member, before⟩
    rw [found] at same
    obtain ⟨y, there, surfaces⟩ := Option.map_eq_some_iff.1 same.symm
    exact ⟨y, there, by rw [← jsonType_surface y, surfaces, jsonType_surface]⟩

/-! ## The walks of the redactor -/

section
variable (sensitive : String → Bool)

theorem masking_maskWalk (v : Value) : Masking v fun mask => maskWalk sensitive mask v := by
  induction v using Value.children with
  | array items ih =>
    simp only [maskWalk, maskItems_eq_map]
    exact .array items (fun item mask => maskWalk sensitive mask item) ih
  | object fields ih =>
    simp only [maskWalk, maskFields_eq_map]
    refine .object fields (fun field mask => maskMember sensitive mask field.1 field.2) fun field member => ?_
    unfold maskMember
    split
    · exact .masked field.2
    · exact ih field member
  | _ => exact .kept _

theorem masking_maskMember (key : String) (v : Value) : Masking v fun mask => maskMember sensitive mask key v := by
  unfold maskMember
  split
  · exact .masked v
  · exact masking_maskWalk sensitive v

/-- Every part of the schema walk, at one value. -/
structure MasksSchema (value : Value) : Prop where
  schema : Masking value fun mask => (walkSchema sensitive (rewriting (maskMember sensitive mask)) value ()).1
  nameMap : Masking value fun mask => (walkNameMap sensitive (rewriting (maskMember sensitive mask)) value ()).1
  schemaArray : ∀ key, Masking value fun mask =>
    (walkSchemaArray sensitive (rewriting (maskMember sensitive mask)) key value ()).1
  dependencies : ∀ key, Masking value fun mask =>
    (walkDependencies sensitive (rewriting (maskMember sensitive mask)) key value ()).1

variable {sensitive}

theorem MasksSchema.member {child : Value} (inside : MasksSchema sensitive child) (key : String) :
    Masking child fun mask => (walkMember sensitive (rewriting (maskMember sensitive mask)) key child ()).1 := by
  unfold walkMember
  split
  · exact masking_maskMember sensitive key child
  split
  · exact inside.nameMap
  split
  · exact inside.schema
  split
  · exact inside.schemaArray key
  split
  · exact inside.dependencies key
  · exact masking_maskMember sensitive key child

theorem MasksSchema.definition {definition : Value} (inside : MasksSchema sensitive definition) (name : String) :
    Masking definition fun mask =>
      (walkDefinition sensitive (rewriting (maskMember sensitive mask)) name definition ()).1 := by
  unfold walkDefinition
  split
  · exact inside.schema
  · exact masking_maskMember sensitive name definition

theorem MasksSchema.dependency {definition : Value} (inside : MasksSchema sensitive definition) (key name : String) :
    Masking definition fun mask =>
      (walkDependency sensitive (rewriting (maskMember sensitive mask)) key name definition ()).1 := by
  unfold walkDependency
  split
  · exact .kept definition
  split
  · exact inside.schema
  · exact masking_maskMember sensitive name definition

theorem masksSchema (value : Value) : MasksSchema sensitive value := by
  induction value using Value.children with
  | array items ih =>
    refine ⟨masking_maskMember sensitive "" _, .kept _, fun key => ?_, fun _ => .kept _⟩
    simp only [walkSchemaArray, walkSchemaItems_eq_sweep, sweep_fst]
    exact .array items (fun item mask =>
      (walkDefinition sensitive (rewriting (maskMember sensitive mask)) key item ()).1)
      fun item member => (ih item member).definition key
  | object fields ih =>
    refine ⟨?_, ?_, fun _ => .kept _, fun key => ?_⟩
    · simp only [walkSchema, walkSchemaMembers_eq_sweep, sweep_fst, named]
      exact .object fields (fun field mask =>
        (walkMember sensitive (rewriting (maskMember sensitive mask)) field.1 field.2 ()).1)
        fun field member => (ih field member).member field.1
    · simp only [walkNameMap, walkDefinitions_eq_sweep, sweep_fst, named]
      exact .object fields (fun field mask =>
        (walkDefinition sensitive (rewriting (maskMember sensitive mask)) field.1 field.2 ()).1)
        fun field member => (ih field member).definition field.1
    · simp only [walkDependencies, walkDependencyMembers_eq_sweep, sweep_fst, named]
      exact .object fields (fun field mask =>
        (walkDependency sensitive (rewriting (maskMember sensitive mask)) key field.1 field.2 ()).1)
        fun field member => (ih field member).dependency key field.1
  | bool b => exact ⟨.kept _, .kept _, fun _ => .kept _, fun _ => .kept _⟩
  | null | number _ | string _ =>
    exact ⟨masking_maskMember sensitive "" _, .kept _, fun _ => .kept _, fun _ => .kept _⟩

variable (sensitive)

theorem masking_maskToolDefinition (tool : Value) :
    Masking tool fun mask => maskToolDefinition sensitive mask tool := by
  cases tool with
  | object fields =>
    refine .object fields (fun field mask => if sensitive field.1 then mask field.2
      else if isMcpToolSchemaKey field.1 then maskSchema sensitive mask field.2
      else maskWalk sensitive mask field.2) fun field _ => ?_
    split
    · exact .masked field.2
    split
    · exact (masksSchema field.2).schema
    · exact masking_maskWalk sensitive field.2
  | _ => exact masking_maskWalk sensitive _

/-- What becomes of a member of a result that lists tools. -/
def maskResultField (mask : Value → Value) (key : String) (child : Value) : Value :=
  match key = "tools" && !sensitive key, child with
  | true, .array tools => .array (tools.map (maskToolDefinition sensitive mask))
  | _, child => maskMember sensitive mask key child

theorem masking_maskResult (result : Value) : Masking result fun mask => maskResult sensitive mask result := by
  cases result with
  | object fields =>
    refine .object fields (fun field mask => maskResultField sensitive mask field.1 field.2) fun field _ => ?_
    unfold maskResultField
    cases field.1 = "tools" && !sensitive field.1 with
    | false => exact masking_maskMember sensitive field.1 field.2
    | true =>
      cases field.2 with
      | array tools =>
        exact .array tools (fun tool mask => maskToolDefinition sensitive mask tool)
          fun tool _ => masking_maskToolDefinition sensitive tool
      | _ => exact masking_maskMember sensitive field.1 _
  | _ => exact masking_maskWalk sensitive _

theorem masking_maskMessage (context : RedactionContext) (message : Value) :
    Masking message fun mask => maskMessage sensitive mask context message := by
  cases message with
  | object fields =>
    refine .object fields (fun field mask => if sensitive field.1 then mask field.2
      else if field.1 = "result" && decide (context = .toolListResponse) then maskResult sensitive mask field.2
      else maskWalk sensitive mask field.2) fun field _ => ?_
    split
    · exact .masked field.2
    split
    · exact masking_maskResult sensitive field.2
    · exact masking_maskWalk sensitive field.2
  | _ => exact masking_maskWalk sensitive _

end

/-- The positions that a redactor masks in a payload. -/
def Redactor.maskedPositions (redactor : Redactor) (context : RedactionContext) (v : Value) : Set (List String) :=
  if redactor.isActive then positionsOf (fun mask => maskMessage redactor.isSensitiveKey mask context v) v else ∅

theorem maskedAt_none (mask : Value → Value) (v : Value) : MaskedAt mask ∅ v v where
  masked := fun _ member => nomatch member
  elsewhere := fun _ _ => rfl

/-- Both redactions mask the same positions and leave everything else as it is. One puts the placeholder there, the
other a neutral value of the type that was there, and so has the types of the payload wherever it has values. -/
theorem typed_redaction_masks_alike (policy : RedactionPolicy) (context : RedactionContext) (v : Value) :
    MaskedAt (fun _ => placeholder) ((Redactor.new policy).maskedPositions context v) v
      ((Redactor.new policy).redactWithContext v context) ∧
    MaskedAt redactValueTyped ((Redactor.new policy).maskedPositions context v) v
      ((Redactor.new policy).redactPreservingTypesWithContext v context) ∧
    ∀ position x, ((Redactor.new policy).redactPreservingTypesWithContext v context).resolve position = some x →
      ∃ y, v.resolve position = some y ∧ jsonType y = jsonType x := by
  have typed : MaskedAt redactValueTyped ((Redactor.new policy).maskedPositions context v) v
      ((Redactor.new policy).redactPreservingTypesWithContext v context) := by
    unfold Redactor.maskedPositions Redactor.redactPreservingTypesWithContext
    split
    · exact (masking_maskMessage _ context v).maskedAt redactValueTyped
    · exact maskedAt_none redactValueTyped v
  refine ⟨?_, typed, fun _ _ => typed.sameTypes⟩
  unfold Redactor.maskedPositions Redactor.redactWithContext
  split
  · exact (masking_maskMessage _ context v).maskedAt fun _ => placeholder
  · exact maskedAt_none _ v

end McpTracer.Redact
