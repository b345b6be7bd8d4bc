import McpTracer.Json.Schema
import McpTracer.Model.SchemaReports

/-! When a completed analysis says nothing of a schema.

A schema can be written in several forms: lists that are sets in any order, a single type with
or without its brackets, defaults spelled out. The analyzer reads each keyword into a set or a
state and compares what it has read. The reading keeps everything but the contents of a
schema-valued `additionalProperties`.
-/

set_option autoImplicit false

namespace McpTracer.Model
open McpTracer.Foundation McpTracer.Json McpTracer.Protocol McpTracer.Storage

/-! ## Schemas in different forms -/

/-- Equal keywords, or keywords that list the same items in some order. -/
def SameItems (items : Option Value → Option (List Value)) (before after : Option Value) : Prop :=
  (before == after) = true ∨
    ∃ old new, items before = some old ∧ items after = some new ∧ old.Perm new

/-- An absent `additionalProperties` is `true`. -/
def Unrestricted (additional : Option Value) : Prop := additional = none ∨ additional = some (.bool true)

/-- The keywords of two nodes, definitions of properties apart, say the same. -/
structure SameKeywords (before after : List (String × Value)) : Prop where
  type : SameItems typeItems (before.lookup "type") (after.lookup "type")
  required : SameItems requiredItems (before.lookup "required") (after.lookup "required")
  additionalProperties :
    (before.lookup "additionalProperties" == after.lookup "additionalProperties") = true ∨
      Unrestricted (before.lookup "additionalProperties") ∧ Unrestricted (after.lookup "additionalProperties")
  enum : SameItems enumItems (before.lookup "enum") (after.lookup "enum")
  others : ∀ keyword, keyword ∉ knownKeywords → (before.lookup keyword == after.lookup keyword) = true

/-- Two schemas are equal up to their form; an undeclared property is one declared as `{}`. -/
inductive SameSchema : Value → Value → Prop where
  | equal {before after : Value} (same : before.beq after = true) : SameSchema before after
  | node {before after : List (String × Value)} (keywords : SameKeywords before after)
      (valid : (hasInvalidProperties before || hasInvalidProperties after) = false)
      (definitions : ∀ name, SameSchema (propertySchema before name) (propertySchema after name)) :
      SameSchema (.object before) (.object after)
  | malformed {before after : List (String × Value)} (keywords : SameKeywords before after)
      (properties : (before.lookup "properties" == after.lookup "properties") = true) :
      SameSchema (.object before) (.object after)

/-- The definition that a path of property names leads to. -/
def definitionAt : List String → Value → Value
  | [], schema => schema
  | name :: path, schema => definitionAt path (propertySchema (schema.asObject.getD []) name)

/-- Wherever both schemas restrict additional properties by a schema, it is the same one. -/
def RestrictionsAgree (before after : Value) : Prop :=
  ∀ (path : List String) (old new : List (String × Value)),
    (definitionAt path before).get "additionalProperties" = some (.object old) →
    (definitionAt path after).get "additionalProperties" = some (.object new) →
    (Value.object old).beq (.object new) = true

/-! ## Schemas that read alike -/

/-- Equal keywords, or keywords that are read as the same. -/
def ReadAlike {A : Type} (parse : Option Value → Option A) (before after : Option Value) : Prop :=
  (before == after) = true ∨ ∃ read, parse before = some read ∧ parse after = some read

structure KeywordsReadAlike (codec : Codec) (before after : List (String × Value)) : Prop where
  type : ReadAlike parseTypeSet (before.lookup "type") (after.lookup "type")
  required : ReadAlike parseRequired (before.lookup "required") (after.lookup "required")
  additionalProperties : ReadAlike parseAdditionalProperties (before.lookup "additionalProperties")
    (after.lookup "additionalProperties")
  enum : ReadAlike (parseEnum codec) (before.lookup "enum") (after.lookup "enum")
  others : ∀ keyword, keyword ∉ knownKeywords → (before.lookup keyword == after.lookup keyword) = true

/-- Two schemas that the analyzer reads as the same, node by node. -/
inductive SchemasReadAlike (codec : Codec) : Value → Value → Prop where
  | equal {before after : Value} (same : before.beq after = true) : SchemasReadAlike codec before after
  | node {before after : List (String × Value)} (keywords : KeywordsReadAlike codec before after)
      (valid : (hasInvalidProperties before || hasInvalidProperties after) = false)
      (definitions : ∀ name,
        SchemasReadAlike codec (propertySchema before name) (propertySchema after name)) :
      SchemasReadAlike codec (.object before) (.object after)

/-! ## What the readings keep -/

theorem mapM_asStr_eq_some {values : List Value} {names : List String}
    (read : values.mapM Value.asStr = some names) : values = names.map Value.string := by
  induction values generalizing names with
  | nil =>
    obtain rfl : names = [] := by simpa [eq_comm] using read
    rfl
  | cons value rest ih =>
    simp only [List.mapM_cons, Option.bind_eq_bind, Option.bind_eq_some_iff] at read
    obtain ⟨name, head, others, tail, built⟩ := read
    obtain rfl : name :: others = names := by simpa using built
    rw [ih tail, List.map_cons]
    cases value <;> simp_all [Value.asStr]

theorem parseTypeSet_eq_some {keyword : Option Value} {read : Option (List String)}
    (parsed : parseTypeSet keyword = some read) :
    keyword = none ∧ read = none ∨ ∃ names : List String, typeItems keyword = some (names.map Value.string) ∧
      names.Nodup ∧ read = some (SortedSet.ofList names) := by
  unfold parseTypeSet at parsed
  split at parsed
  · exact .inl ⟨rfl, (Option.some.inj parsed).symm⟩
  · rename_i name
    split_ifs at parsed
    refine .inr ⟨[name], rfl, by simp, ?_⟩
    simp [← Option.some.inj parsed, SortedSet.ofList]
  · split_ifs at parsed
    simp only [Option.bind_eq_bind, Option.bind_eq_some_iff] at parsed
    obtain ⟨names, strings, checked⟩ := parsed
    split_ifs at checked with repeated unknown
    refine .inr ⟨names, by rw [mapM_asStr_eq_some strings]; rfl, ?_, (Option.some.inj checked).symm⟩
    exact SortedSet.length_ofList_iff.1 (not_not.1 repeated)
  · cases parsed

theorem parseRequired_eq_some {keyword : Option Value} {read : List String}
    (parsed : parseRequired keyword = some read) :
    ∃ names : List String, requiredItems keyword = some (names.map Value.string) ∧
      names.Nodup ∧ read = SortedSet.ofList names := by
  unfold parseRequired at parsed
  split at parsed
  · exact ⟨[], rfl, by simp, by simp [← Option.some.inj parsed, SortedSet.ofList]⟩
  · split_ifs at parsed
    simp only [Option.bind_eq_bind, Option.bind_eq_some_iff] at parsed
    obtain ⟨names, strings, checked⟩ := parsed
    split_ifs at checked with repeated
    refine ⟨names, by rw [mapM_asStr_eq_some strings]; rfl, ?_, (Option.some.inj checked).symm⟩
    exact SortedSet.length_ofList_iff.1 (not_not.1 repeated)
  · cases parsed

theorem parseEnum_eq_some {codec : Codec} {keyword : Option Value} {read : Option (List String)}
    (parsed : parseEnum codec keyword = some read) :
    keyword = none ∧ read = none ∨ ∃ values : List Value, keyword = some (.array values) ∧
      (values.map codec.toString).Nodup ∧ read = some (SortedSet.ofList (values.map codec.toString)) := by
  unfold parseEnum at parsed
  split at parsed
  · exact .inl ⟨rfl, (Option.some.inj parsed).symm⟩
  · rename_i values
    dsimp only at parsed
    split_ifs at parsed with sized repeated
    refine .inr ⟨values, rfl, ?_, (Option.some.inj parsed).symm⟩
    exact SortedSet.length_ofList_iff.1 (not_not.1 repeated)
  · cases parsed

/-! ## Silence is reading alike -/

/-- A keyword whose report is empty on equal readings only is silent when it reads alike. -/
theorem readChanges_eq_nil_iff {A : Type} {parse : Option Value → Option A}
    {report : A → A → List SchemaChangeExplanation} {unread : SchemaChangeExplanation}
    {before after : Option Value}
    (reports : ∀ olds news, parse before = some olds → parse after = some news →
      (report olds news = [] ↔ olds = news)) :
    readChanges parse unread report before after = [] ↔ ReadAlike parse before after := by
  unfold readChanges ReadAlike
  cases same : before == after with
  | true => simp [bne, same]
  | false =>
    rw [if_pos (by simp [bne, same])]
    cases left : parse before with
    | none => simp
    | some olds =>
      cases right : parse after with
      | none => simp
      | some news => simp [reports olds news left right, eq_comm]

section
variable {site : SchemaSite} {before after : Option Value}

theorem typeChanges_eq_nil_iff : typeChanges site before after = [] ↔ ReadAlike parseTypeSet before after := by
  refine readChanges_eq_nil_iff fun olds news _ _ => ?_
  by_cases same : olds = news <;> simp [same]

theorem enumChanges_eq_nil_iff {codec : Codec} :
    enumChanges codec site before after = [] ↔ ReadAlike (parseEnum codec) before after := by
  refine readChanges_eq_nil_iff fun olds news _ _ => ?_
  by_cases same : olds = news <;> simp [same]

/-- Nothing was added to and nothing removed from a set that stayed the same. -/
theorem requiredChanges_eq_nil_iff :
    requiredChanges site before after = [] ↔ ReadAlike parseRequired before after := by
  refine readChanges_eq_nil_iff fun olds news left right => ?_
  obtain ⟨olds, -, -, rfl⟩ := parseRequired_eq_some left
  obtain ⟨news, -, -, rfl⟩ := parseRequired_eq_some right
  rw [SortedSet.ofList_eq_iff]
  constructor
  · intro silent name
    simp only [List.append_eq_nil_iff, List.map_eq_nil_iff, List.filter_eq_nil_iff, SortedSet.mem_ofList,
      Bool.not_eq_true', Bool.not_eq_false, List.contains_eq_mem, decide_eq_true_eq] at silent
    exact ⟨silent.2 name, silent.1 name⟩
  · intro same
    simp [same]

theorem additionalPropertiesChanges_eq_nil_iff :
    additionalPropertiesChanges site before after = [] ↔
      ReadAlike parseAdditionalProperties before after := by
  refine readChanges_eq_nil_iff fun old new _ _ => ?_
  cases old <;> cases new <;> simp

end

section
variable {codec : Codec} {site : SchemaSite} {before after : List (String × Value)}

theorem otherChanges_eq_nil_iff : otherChanges site before after = [] ↔
    ∀ keyword, keyword ∉ knownKeywords → (before.lookup keyword == after.lookup keyword) = true := by
  unfold otherChanges
  simp only [List.map_eq_nil_iff, List.filter_eq_nil_iff, SortedSet.mem_ofList, List.mem_append]
  constructor
  · intro none keyword other
    by_cases bound : keyword ∈ before.map Prod.fst ∨ keyword ∈ after.map Prod.fst
    · simpa [bne, other] using none keyword bound
    · -- A keyword in neither schema is absent from both.
      simp only [not_or, ← lookup_isSome_iff, Bool.not_eq_true, Option.isSome_eq_false_iff,
        Option.isNone_iff_eq_none] at bound
      rw [bound.1, bound.2]
      rfl
  · intro same keyword _ flagged
    simp only [bne, Bool.and_eq_true, Bool.not_eq_true', List.contains_eq_mem, decide_eq_false_iff_not] at flagged
    rw [same keyword flagged.1] at flagged
    cases flagged.2

theorem changes_eq_nil_iff (site : SchemaSite) : keywordChanges codec site before after = [] ∧ otherChanges site before after = [] ↔
    KeywordsReadAlike codec before after := by
  simp only [keywordChanges, List.append_eq_nil_iff, typeChanges_eq_nil_iff, requiredChanges_eq_nil_iff,
    additionalPropertiesChanges_eq_nil_iff, enumChanges_eq_nil_iff, otherChanges_eq_nil_iff]
  constructor
  · rintro ⟨⟨⟨⟨type, required⟩, additional⟩, enum⟩, others⟩
    exact ⟨type, required, additional, enum, others⟩
  · rintro ⟨type, required, additional, enum, others⟩
    exact ⟨⟨⟨⟨type, required⟩, additional⟩, enum⟩, others⟩

end

/-- Of a property that neither schema declares there is nothing to compare. -/
theorem propertySchema_of_not_named {before after : List (String × Value)} {name : String}
    (absent : name ∉ propertyNames before after) :
    propertySchema before name = .object [] ∧ propertySchema after name = .object [] := by
  have undeclared : ∀ fields : List (String × Value), name ∉ ((propertiesOf fields).getD []).map Prod.fst →
      propertySchema fields name = .object [] := by
    intro fields absent
    unfold propertySchema
    cases declared : propertiesOf fields with
    | none => rfl
    | some properties =>
      rw [declared, Option.getD_some, ← lookup_isSome_iff, Bool.not_eq_true, Option.isSome_eq_false_iff,
        Option.isNone_iff_eq_none] at absent
      rw [Option.bind_some, absent]
      rfl
  simp only [propertyNames, SortedSet.mem_ofList, List.mem_append, not_or] at absent
  exact ⟨undeclared before absent.1, undeclared after absent.2⟩

theorem Explains.eq_nil_iff {codec : Codec} {site : SchemaSite} {before after : Value}
    {found : List SchemaChangeExplanation} (explains : Explains codec site before after found)
    (differ : before.beq after = false) : found = [] ↔ SchemasReadAlike codec before after := by
  induction explains with
  | shape odd =>
    refine iff_of_false (by simp) fun alike => ?_
    cases alike with
    | equal same => rw [differ] at same; cases same
    | node => simp [Value.asObject] at odd
  | invalid invalid =>
    refine iff_of_false (by simp) fun alike => ?_
    cases alike with
    | equal same => rw [differ] at same; cases same
    | node _ valid => rw [invalid] at valid; cases valid
  | @object site before after valid children unchanged changed ih =>
    have keywords : keywordChanges codec site before after ++ (propertyNames before after).flatMap children ++
        otherChanges site before after = [] ↔ KeywordsReadAlike codec before after ∧
          ∀ name ∈ propertyNames before after, children name = [] := by
      rw [← changes_eq_nil_iff site]
      simp only [List.append_eq_nil_iff, List.flatMap_eq_nil_iff]
      exact and_right_comm
    have definitions : (∀ name ∈ propertyNames before after, children name = []) ↔
        ∀ name, SchemasReadAlike codec (propertySchema before name) (propertySchema after name) := by
      constructor
      · intro silent name
        cases same : (propertySchema before name).beq (propertySchema after name) with
        | true => exact .equal same
        | false =>
          by_cases named : name ∈ propertyNames before after
          · exact (ih name named same same).1 (silent name named)
          · obtain ⟨left, right⟩ := propertySchema_of_not_named named
            rw [left, right] at same
            cases same
      · intro alike name named
        cases same : (propertySchema before name).beq (propertySchema after name) with
        | true => exact unchanged name named same
        | false => exact (ih name named same same).2 (alike name)
    rw [keywords, definitions]
    constructor
    · exact fun both => .node both.1 valid both.2
    · intro alike
      cases alike with
      | equal same => rw [differ] at same; cases same
      | node keywords _ definitions => exact ⟨keywords, definitions⟩

/-! ## Reading alike is being the same but for restrictions -/

theorem propertySchema_eq (fields : List (String × Value)) (name : String) :
    propertySchema fields name = (definitionOf fields name).getD (.object []) := by
  unfold propertySchema propertiesOf definitionOf
  cases fields.lookup "properties" with
  | none => rfl
  | some properties => cases properties <;> rfl

theorem propertySchema_beq {before after : List (String × Value)}
    (properties : (before.lookup "properties" == after.lookup "properties") = true) (name : String) :
    (propertySchema before name).beq (propertySchema after name) = true := by
  have same := Value.optionBeq_iff.1 (definitionOf_beq properties name)
  rw [propertySchema_eq, propertySchema_eq]
  generalize definitionOf before name = old at same ⊢
  generalize definitionOf after name = new at same ⊢
  cases same with
  | none => rfl
  | some same => exact same

theorem RestrictionsAgree.of_beq {before after : Value} (same : before.beq after = true) :
    RestrictionsAgree before after := by
  intro path
  induction path generalizing before after with
  | nil =>
    intro old new left right
    have found := Value.get_beq same "additionalProperties"
    rw [show before.get "additionalProperties" = _ from left,
      show after.get "additionalProperties" = _ from right] at found
    exact found
  | cons name path ih =>
    refine ih ?_
    cases before with
    | object olds =>
      cases after with
      | object news => exact propertySchema_beq (Value.lookup_beq same "properties") name
      | _ => cases same
    | _ => cases after <;> first | rfl | cases same

/-- At the root the keyword itself is compared, further down the definitions are. -/
theorem RestrictionsAgree.of_node {before after : List (String × Value)}
    (keyword : (before.lookup "additionalProperties" == after.lookup "additionalProperties") = true ∨
      Unrestricted (before.lookup "additionalProperties") ∧ Unrestricted (after.lookup "additionalProperties"))
    (definitions : ∀ name, RestrictionsAgree (propertySchema before name) (propertySchema after name)) :
    RestrictionsAgree (.object before) (.object after) := by
  intro path old new left right
  cases path with
  | nil =>
    rw [show before.lookup "additionalProperties" = _ from left,
      show after.lookup "additionalProperties" = _ from right] at keyword
    rcases keyword with same | ⟨open_, -⟩
    · exact same
    · rcases open_ with absent | allowed
      · cases absent
      · cases allowed
  | cons name path => exact definitions name path old new left right

theorem SameSchema.restrictionsAgree {before after : Value} (same : SameSchema before after) :
    RestrictionsAgree before after := by
  induction same with
  | equal same => exact .of_beq same
  | node keywords _ _ ih => exact .of_node keywords.additionalProperties ih
  | malformed keywords properties =>
    exact .of_node keywords.additionalProperties fun name => .of_beq (propertySchema_beq properties name)

theorem sameItems_of_readAlike_type {before after : Option Value} (alike : ReadAlike parseTypeSet before after) :
    SameItems typeItems before after := by
  rcases alike with same | ⟨read, left, right⟩
  · exact .inl same
  · rcases parseTypeSet_eq_some left with ⟨rfl, rfl⟩ | ⟨olds, oldItems, oldUnique, rfl⟩
    · rcases parseTypeSet_eq_some right with ⟨rfl, -⟩ | ⟨_, _, _, unread⟩
      · exact .inl rfl
      · cases unread
    · rcases parseTypeSet_eq_some right with ⟨-, unread⟩ | ⟨news, newItems, newUnique, sameSet⟩
      · cases unread
      · refine .inr ⟨_, _, oldItems, newItems, List.Perm.map _ ?_⟩
        exact SortedSet.perm_of_ofList_eq oldUnique newUnique (Option.some.inj sameSet)

theorem sameItems_of_readAlike_required {before after : Option Value}
    (alike : ReadAlike parseRequired before after) : SameItems requiredItems before after := by
  rcases alike with same | ⟨read, left, right⟩
  · exact .inl same
  · obtain ⟨olds, oldItems, oldUnique, rfl⟩ := parseRequired_eq_some left
    obtain ⟨news, newItems, newUnique, sameSet⟩ := parseRequired_eq_some right
    exact .inr ⟨_, _, oldItems, newItems,
      List.Perm.map _ (SortedSet.perm_of_ofList_eq oldUnique newUnique sameSet)⟩

/-- Equal texts are texts of equal members, since printing is injective on what a decoder yields. -/
theorem sameItems_of_readAlike_enum {codec : Codec} {before after : Option Value}
    (formedBefore : ∀ keyword, before = some keyword → keyword.wellFormed = true)
    (formedAfter : ∀ keyword, after = some keyword → keyword.wellFormed = true)
    (alike : ReadAlike (parseEnum codec) before after) : SameItems enumItems before after := by
  rcases alike with same | ⟨read, left, right⟩
  · exact .inl same
  · rcases parseEnum_eq_some left with ⟨rfl, rfl⟩ | ⟨olds, rfl, oldUnique, rfl⟩
    · rcases parseEnum_eq_some right with ⟨rfl, -⟩ | ⟨_, _, _, unread⟩
      · exact .inl rfl
      · cases unread
    · rcases parseEnum_eq_some right with ⟨-, unread⟩ | ⟨news, rfl, newUnique, sameSet⟩
      · cases unread
      · refine .inr ⟨olds, news, rfl, rfl, ?_⟩
        have texts := SortedSet.ofList_eq_iff.1 (Option.some.inj sameSet)
        have oldFormed : ∀ value ∈ olds, value.wellFormed = true :=
          (Value.wellFormedItems_iff olds).1 (formedBefore _ rfl)
        have newFormed : ∀ value ∈ news, value.wellFormed = true :=
          (Value.wellFormedItems_iff news).1 (formedAfter _ rfl)
        refine (List.perm_ext_iff_of_nodup oldUnique.of_map newUnique.of_map).2 fun value => ?_
        constructor
        · intro member
          obtain ⟨other, found, text⟩ := List.mem_map.1 ((texts _).1 (List.mem_map_of_mem member))
          exact codec.toString_injective (newFormed other found) (oldFormed value member) text ▸ found
        · intro member
          obtain ⟨other, found, text⟩ := List.mem_map.1 ((texts _).2 (List.mem_map_of_mem member))
          exact codec.toString_injective (oldFormed other found) (newFormed value member) text ▸ found

/-- What each state was read from. -/
theorem parseAdditionalProperties_eq_some {keyword : Option Value} {state : AdditionalPropertiesState}
    (parsed : parseAdditionalProperties keyword = some state) :
    (state = .allow ∧ Unrestricted keyword) ∨ (state = .deny ∧ keyword = some (.bool false)) ∨
      (state = .constrained ∧ ∃ schema, keyword = some (.object schema)) := by
  unfold parseAdditionalProperties at parsed
  split at parsed <;> cases parsed
  · exact .inl ⟨rfl, .inl rfl⟩
  · exact .inl ⟨rfl, .inr rfl⟩
  · exact .inr (.inl ⟨rfl, rfl⟩)
  · exact .inr (.inr ⟨rfl, _, rfl⟩)

/-- The states read are equal; only the schema-valued one leaves something open. -/
theorem same_of_readAlike_additionalProperties {before after : Option Value}
    (alike : ReadAlike parseAdditionalProperties before after)
    (agree : ∀ old new, before = some (.object old) → after = some (.object new) →
      (Value.object old).beq (.object new) = true) :
    (before == after) = true ∨ Unrestricted before ∧ Unrestricted after := by
  rcases alike with same | ⟨read, left, right⟩
  · exact .inl same
  · rcases parseAdditionalProperties_eq_some left with ⟨rfl, old⟩ | ⟨rfl, rfl⟩ | ⟨rfl, olds, rfl⟩ <;>
      rcases parseAdditionalProperties_eq_some right with ⟨same, new⟩ | ⟨same, rfl⟩ | ⟨same, news, rfl⟩ <;>
      cases same
    · exact .inr ⟨old, new⟩
    · exact .inl rfl
    · exact .inl (agree olds news rfl rfl)

theorem wellFormed_lookup {fields : List (String × Value)} (formed : (Value.object fields).wellFormed = true)
    (key : String) (child : Value) (found : fields.lookup key = some child) : child.wellFormed = true :=
  Value.wellFormed_get formed found

theorem wellFormed_propertySchema {fields : List (String × Value)}
    (formed : (Value.object fields).wellFormed = true) (name : String) :
    (propertySchema fields name).wellFormed = true := by
  unfold propertySchema propertiesOf
  cases keyword : fields.lookup "properties" with
  | none => rfl
  | some properties =>
    have formedKeyword := wellFormed_lookup formed _ _ keyword
    cases properties with
    | object definitions =>
      rw [Option.bind_some, Value.asObject, Option.bind_some]
      cases found : definitions.lookup name with
      | none => rfl
      | some definition => exact wellFormed_lookup formedKeyword _ _ found
    | _ => rfl

theorem SchemasReadAlike.sameSchema {codec : Codec} {before after : Value}
    (alike : SchemasReadAlike codec before after) (formedBefore : before.wellFormed = true)
    (formedAfter : after.wellFormed = true) (agree : RestrictionsAgree before after) :
    SameSchema before after := by
  induction alike with
  | equal same => exact .equal same
  | @node before after keywords valid _ ih =>
    refine .node ?_ valid fun name => ih name (wellFormed_propertySchema formedBefore name)
      (wellFormed_propertySchema formedAfter name) fun path => agree (name :: path)
    exact {
      type := sameItems_of_readAlike_type keywords.type
      required := sameItems_of_readAlike_required keywords.required
      additionalProperties :=
        same_of_readAlike_additionalProperties keywords.additionalProperties (agree [])
      enum := sameItems_of_readAlike_enum (wellFormed_lookup formedBefore "enum")
        (wellFormed_lookup formedAfter "enum") keywords.enum
      others := keywords.others }

/-! ## Catalogs -/

/-- The schemas of a catalog are trees that a decoder has yielded. -/
theorem extractTools_wellFormed {codec : Codec} {messages : List StoredMessage} {tool : String × ToolDef}
    (listed : tool ∈ extractTools codec messages) (kind : ToolSchemaKind) (schema : Value)
    (declared : tool.2.schema kind = some schema) : schema.wellFormed = true := by
  obtain ⟨tool, formed, read⟩ := mem_extractTools listed
  rw [read] at declared
  cases kind with
  | input => exact Value.wellFormed_get formed declared
  | output => exact Value.wellFormed_get formed declared

theorem SchemaExplained.eq_nil_iff {codec : Codec} {tool : String} {kind : ToolSchemaKind}
    {before after : Option Value} {found : List SchemaChangeExplanation}
    (explained : SchemaExplained codec tool kind before after found) :
    found = [] ↔ Option.Rel (SchemasReadAlike codec) before after := by
  cases before with
  | none =>
    cases after with
    | none => exact iff_of_true explained .none
    | some after =>
      obtain rfl : found = [_] := explained
      simp
  | some before =>
    cases after with
    | none =>
      obtain rfl : found = [_] := explained
      simp
    | some after =>
      rw [Option.rel_some_some]
      cases same : before.beq after with
      | true => exact iff_of_true (explained.1 same) (.equal same)
      | false => exact (explained.2 same).eq_nil_iff same

/-- In a complete analysis, a schema of which nothing is reported has not changed, if and only if its versions
do not read alike while they differ in a restriction of additional properties. -/
theorem silent_schema_iff {codec : Codec} {baseline candidate : List StoredMessage}
    (complete : (explainToolSchemaChanges codec baseline candidate).analysisStatus = .complete)
    {tool : String} {before after : ToolDef} (kind : ToolSchemaKind)
    (old : (extractTools codec baseline).lookup tool = some before)
    (new : (extractTools codec candidate).lookup tool = some after) :
    ((∀ explanation ∈ (explainToolSchemaChanges codec baseline candidate).schemaExplanations,
        ¬ explanation.Of tool kind) →
      Option.Rel SameSchema (before.schema kind) (after.schema kind)) ↔
    ∀ oldSchema newSchema, before.schema kind = some oldSchema → after.schema kind = some newSchema →
      SchemasReadAlike codec oldSchema newSchema → RestrictionsAgree oldSchema newSchema := by
  obtain ⟨found, explained, reported⟩ := explainToolSchemaChanges_complete complete kind old new
  have silent : (∀ explanation ∈ (explainToolSchemaChanges codec baseline candidate).schemaExplanations,
      ¬ explanation.Of tool kind) ↔ Option.Rel (SchemasReadAlike codec) (before.schema kind) (after.schema kind) := by
    rw [← explained.eq_nil_iff, List.eq_nil_iff_forall_not_mem]
    simp only [← reported, not_and]
  have formedBefore := extractTools_wellFormed (mem_of_lookup old) kind
  have formedAfter := extractTools_wellFormed (mem_of_lookup new) kind
  rw [silent]
  generalize before.schema kind = earlier at formedBefore ⊢
  generalize after.schema kind = later at formedAfter ⊢
  constructor
  · rintro unchanged oldSchema newSchema rfl rfl alike
    exact (Option.rel_some_some.1 (unchanged (.some alike))).restrictionsAgree
  · intro agree alike
    cases alike with
    | none => exact .none
    | some alike =>
      exact .some (alike.sameSchema (formedBefore _ rfl) (formedAfter _ rfl) (agree _ _ rfl rfl alike))

deriving instance DecidableEq for ToolCatalog

/-- A session that lists one tool with this input schema. -/
def toolListing (schema : Value) : List StoredMessage :=
  [McpMessage.mk 0 0 .clientToServer
      (.object [("id", .number (.posInt 1)), ("method", .string "tools/list")]) 0,
    McpMessage.mk 1 5 .serverToClient
      (.object [("id", .number (.posInt 1)), ("result", .object [("tools",
        .array [.object [("inputSchema", schema), ("name", .string "echo")]])])]) 0].map
    (StoredMessage.ofMessage Compact.codec)

def echoTool (schema : Value) : ToolDef := ⟨none, none, some schema, none, none⟩

/-- The catalog of the one tool. -/
def echoCatalog (schema : Value) : ToolCatalog := ⟨[("echo", echoTool schema)], true⟩

def listingRequest : Value := .object [("id", .number (.posInt 1)), ("method", .string "tools/list")]

def listingResponse (schema : Value) : Value :=
  .object [("id", .number (.posInt 1)), ("result", .object [("tools",
    .array [.object [("inputSchema", schema), ("name", .string "echo")]])])]

def listingExchange : Exchange where
  requestSeq := some 0
  responseSeq := some 1
  rpcId := some "1"
  origin := .clientToServer
  method := some "tools/list"
  toolName := none
  status := .ok
  latencyNs := some 5
  errorCode := none
  requestTsNs := some 0
  responseTsNs := some 5

theorem listing_exchanges (schema : Value) :
    (correlate Compact.codec (toolListing schema)).exchanges = [listingExchange] := rfl

/-- The session's catalog, for every schema that the codec promises to read back. -/
theorem listing_catalog {schema : Value} (formed : schema.wellFormed = true) (shallow : schema.depth < 100)
    (floats : schema.floatFree = true) : extractToolCatalog Compact.codec (toolListing schema) = echoCatalog schema := by
  have asked : Compact.codec.fromStr (Compact.codec.toString listingRequest) = some listingRequest :=
    Compact.codec.fromStr_toString (by decide) (by decide) (by decide)
  have answered : Compact.codec.fromStr (Compact.codec.toString (listingResponse schema)) =
      some (listingResponse schema) := by
    refine Compact.codec.fromStr_toString ?_ ?_ ?_
    · simp only [listingResponse, Value.wellFormed, Value.wellFormedItems, Value.wellFormedFields, formed, List.map_cons,
        List.map_nil]
      decide
    · simp only [listingResponse, Value.depth, Value.depthItems, Value.depthFields, recursionLimit]
      omega
    · simp [listingResponse, Value.floatFree, Value.floatFreeItems, Value.floatFreeFields, floats]
  unfold listingRequest at asked
  unfold listingResponse at answered
  have payloads : payloadsBySeq Compact.codec (toolListing schema) =
      Table.ofList [(0, listingRequest), (1, listingResponse schema)] := by
    unfold payloadsBySeq toolListing
    simp only [List.map_cons, List.map_nil, List.filterMap_cons, List.filterMap_nil, StoredMessage.ofMessage]
    rw [asked, answered]
    rfl
  unfold extractToolCatalog
  rw [listing_exchanges, payloads]
  rfl

theorem lookup_echo {messages : List StoredMessage} {schema : Value}
    (listed : extractToolCatalog Compact.codec messages = echoCatalog schema) :
    (extractTools Compact.codec messages).lookup "echo" = some (echoTool schema) := by
  rw [extractTools, listed]
  rfl

/-- A type that is written as a name or as an array. -/
def typed (type : Value) : Value := .object [("type", type)]

theorem listing_typed_name : extractToolCatalog Compact.codec (toolListing (typed (.string "object"))) =
    echoCatalog (typed (.string "object")) :=
  listing_catalog (by decide) (by decide) (by decide)

theorem listing_typed_array : extractToolCatalog Compact.codec (toolListing (typed (.array [.string "object"]))) =
    echoCatalog (typed (.array [.string "object"])) :=
  listing_catalog (by decide) (by decide) (by decide)

theorem silent_schema_bracketed :
    Option.Rel SameSchema (some (typed (.string "object"))) (some (typed (.array [.string "object"]))) := by
  have complete : (explainToolSchemaChanges Compact.codec (toolListing (typed (.string "object")))
      (toolListing (typed (.array [.string "object"])))).analysisStatus = .complete := by
    rw [explainToolSchemaChanges, listing_typed_name, listing_typed_array]
    decide +kernel
  have silent : (explainToolSchemaChanges Compact.codec (toolListing (typed (.string "object")))
      (toolListing (typed (.array [.string "object"])))).schemaExplanations = [] := by
    rw [explainToolSchemaChanges, listing_typed_name, listing_typed_array]
    decide +kernel
  refine (silent_schema_iff complete .input (lookup_echo listing_typed_name) (lookup_echo listing_typed_array)).2
    ?_ fun explanation reported => ?_
  · rintro _ _ ⟨⟩ ⟨⟩ -
    exact .of_node (.inl rfl) fun name => .of_beq rfl
  · rw [silent] at reported
    cases reported

/-- A schema whose additional properties have to satisfy another one. -/
def restrictedBy (schema : List (String × Value)) : Value := .object [("additionalProperties", .object schema)]

theorem listing_unrestricted : extractToolCatalog Compact.codec (toolListing (restrictedBy [])) =
    echoCatalog (restrictedBy []) :=
  listing_catalog (by decide) (by decide) (by decide)

theorem listing_restricted :
    extractToolCatalog Compact.codec (toolListing (restrictedBy [("type", .string "string")])) =
      echoCatalog (restrictedBy [("type", .string "string")]) :=
  listing_catalog (by decide) (by decide) (by decide)

/-- Requiring additional properties to be strings is a change that nothing is said of. -/
theorem restriction_change_silent :
    ¬ ∀ (codec : Codec) (baseline candidate : List StoredMessage),
      (explainToolSchemaChanges codec baseline candidate).analysisStatus = .complete →
      ∀ (tool : String) (before after : ToolDef) (kind : ToolSchemaKind),
        (extractTools codec baseline).lookup tool = some before →
        (extractTools codec candidate).lookup tool = some after →
        (∀ explanation ∈ (explainToolSchemaChanges codec baseline candidate).schemaExplanations,
          ¬ explanation.Of tool kind) →
        Option.Rel SameSchema (before.schema kind) (after.schema kind) := by
  intro unchanged
  have complete : (explainToolSchemaChanges Compact.codec (toolListing (restrictedBy []))
      (toolListing (restrictedBy [("type", .string "string")]))).analysisStatus = .complete := by
    rw [explainToolSchemaChanges, listing_unrestricted, listing_restricted]
    decide +kernel
  have silent : (explainToolSchemaChanges Compact.codec (toolListing (restrictedBy []))
      (toolListing (restrictedBy [("type", .string "string")]))).schemaExplanations = [] := by
    rw [explainToolSchemaChanges, listing_unrestricted, listing_restricted]
    decide +kernel
  have same := unchanged Compact.codec _ _ complete "echo" _ _ .input (lookup_echo listing_unrestricted)
    (lookup_echo listing_restricted) (by simp [silent])
  have agree := (Option.rel_some_some.1 same).restrictionsAgree [] [] [("type", .string "string")] rfl rfl
  exact absurd agree (by decide)

end McpTracer.Model
