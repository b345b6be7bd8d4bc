import McpTracer.Proxy.HeaderEncoding

/-! What an input schema binds to headers.

The walk over a schema carries how it got where it is, and leaves out what has no annotation in it. Here the
schemas in a schema are listed once, each with the properties that lead there, and what the walk accepts is
said of the list.
-/

set_option autoImplicit false

namespace McpTracer.Proxy.HttpReplay
open McpTracer.Foundation McpTracer.Json

/-- A schema, and the properties that lead there from the root if nothing but properties does. -/
structure Place where
  reached : Option (List String)
  schema : List (String × Value)

mutual
/-- All schemas in a value. The names of properties are no keywords, and an annotation is no schema. -/
def placesIn (reached : Option (List String)) : Value → List Place
  | .object schema => ⟨reached, schema⟩ :: keywordPlaces reached schema
  | .array items => itemPlaces items
  | _ => []
def itemPlaces : List Value → List Place
  | [] => []
  | item :: rest => placesIn none item ++ itemPlaces rest
def propertyPlaces (reached : Option (List String)) : List (String × Value) → List Place
  | [] => []
  | (name, child) :: rest => placesIn (reached.map (· ++ [name])) child ++ propertyPlaces reached rest
def keywordPlace (reached : Option (List String)) : String × Value → List Place
  | (keyword, .object fields) =>
    if keyword = headerAnnotation then []
    else if keyword = "properties" then propertyPlaces reached fields
    else placesIn none (.object fields)
  | (keyword, value) => if keyword = headerAnnotation then [] else placesIn none value
def keywordPlaces (reached : Option (List String)) : List (String × Value) → List Place
  | [] => []
  | field :: rest => keywordPlace reached field ++ keywordPlaces reached rest
end

def Place.declared (place : Place) : Option Value := place.schema.lookup headerAnnotation

def Place.isAnnotated (place : Place) : Bool := place.declared.isSome

/-- The schemas that declare a header. -/
def headerPlaces (schema : Value) : List Place := (placesIn (some []) schema).filter Place.isAnnotated

def ToolParamType.name : ToolParamType → String
  | .string => "string"
  | .integer => "integer"
  | .boolean => "boolean"

/-- A header that may be declared where it is. -/
structure Declares (place : Place) (header : String) (path : List String) (valueType : ToolParamType) : Prop where
  reached : place.reached = some path
  property : path ≠ []
  written : place.declared = some (.string header)
  filled : header ≠ ""
  token : isHttpToken header = true
  typed : place.schema.lookup "type" = some (.string valueType.name)

/-- The binding of a declared header. -/
structure Binds (library : HttpLibrary) (place : Place) (binding : ToolHeaderBinding) : Prop where
  declares : ∃ header, Declares place header binding.path binding.valueType ∧
    library.headerName ("mcp-param-" ++ header) = some binding.headerName

/-- What is under the keyword of properties, but is no object of them, has no annotation in it. -/
def ReadableField (field : String × Value) : Prop :=
  field.1 = "properties" → field.2.isObject = true ∨ containsHeaderAnnotation field.2 = false

def Place.Readable (place : Place) : Prop := ∀ field ∈ place.schema, ReadableField field

/-- What the walk over some schemas finds after what was found before. -/
inductive Collects (library : HttpLibrary) :
    List Place → List ToolHeaderBinding → List ToolHeaderBinding → Prop where
  | done (found : List ToolHeaderBinding) : Collects library [] found found
  | plain {place : Place} {rest : List Place} {before after : List ToolHeaderBinding} (readable : place.Readable)
      (free : place.declared = none) (later : Collects library rest before after) :
      Collects library (place :: rest) before after
  | bound {place : Place} {rest : List Place} {before after : List ToolHeaderBinding} {binding : ToolHeaderBinding}
      (readable : place.Readable) (binds : Binds library place binding)
      (fresh : ∀ other ∈ before, other.headerName ≠ binding.headerName)
      (later : Collects library rest (before ++ [binding]) after) : Collects library (place :: rest) before after

section
variable {library : HttpLibrary}

theorem collects_nil_iff {before after : List ToolHeaderBinding} :
    Collects library [] before after ↔ after = before := by
  constructor
  · intro collects
    cases collects
    rfl
  · rintro rfl
    exact .done _

theorem collects_append_iff {first second : List Place} {before after : List ToolHeaderBinding} :
    Collects library (first ++ second) before after ↔
      ∃ between, Collects library first before between ∧ Collects library second between after := by
  constructor
  · intro collects
    induction first generalizing before with
    | nil => exact ⟨before, .done before, collects⟩
    | cons place rest ih =>
      cases collects with
      | plain readable free later =>
        obtain ⟨between, left, right⟩ := ih later
        exact ⟨between, .plain readable free left, right⟩
      | bound readable binds fresh later =>
        obtain ⟨between, left, right⟩ := ih later
        exact ⟨between, .bound readable binds fresh left, right⟩
  · rintro ⟨between, left, right⟩
    induction left with
    | done => exact right
    | plain readable free _ ih => exact .plain readable free (ih right)
    | bound readable binds fresh _ ih => exact .bound readable binds fresh (ih right)

/-! ## The walk -/

def Place.Free (place : Place) : Prop := place.Readable ∧ place.declared = none

/-- Schemas without annotations change nothing. -/
theorem collects_free_iff {places : List Place} (free : ∀ place ∈ places, place.Free)
    {before after : List ToolHeaderBinding} : Collects library places before after ↔ before = after := by
  induction places with
  | nil => exact collects_nil_iff.trans eq_comm
  | cons place rest ih =>
    obtain ⟨⟨readable, unnamed⟩, others⟩ := List.forall_mem_cons.1 free
    constructor
    · intro collects
      cases collects with
      | plain _ _ later => exact (ih others).1 later
      | bound _ binds =>
        obtain ⟨header, declares, -⟩ := binds.declares
        have written := declares.written
        rw [unnamed] at written
        cases written
    · exact fun same => .plain readable unnamed ((ih others).2 same)

theorem free_annotated {fields : List (String × Value)} (free : anyFieldAnnotated fields = false)
    {field : String × Value} (member : field ∈ fields) : containsHeaderAnnotation field.2 = false := by
  induction fields with
  | nil => cases member
  | cons first rest ih =>
    rw [anyFieldAnnotated, Bool.or_eq_false_iff] at free
    rcases List.mem_cons.1 member with rfl | member
    · exact free.1
    · exact ih free.2 member

mutual
theorem placesIn_free (reached : Option (List String)) : (value : Value) → containsHeaderAnnotation value = false →
    ∀ place ∈ placesIn reached value, place.Free
  | .object fields, free => by
    rw [ containsHeaderAnnotation, Bool.or_eq_false_iff, List.any_eq_false] at free
    obtain ⟨unnamed, children⟩ := free
    intro place member
    rw [placesIn, List.mem_cons] at member
    rcases member with rfl | member
    · refine ⟨fun field member _ => .inr (free_annotated children member), ?_⟩
      rw [Place.declared, List.lookup_eq_none_iff]
      intro field member
      rw [bne_iff_ne]
      exact fun same => unnamed field member (decide_eq_true same.symm)
    · exact keywordPlaces_free reached fields children place member
  | .array items, free => by
    rw [ containsHeaderAnnotation] at free
    exact itemPlaces_free items free
  | .null, _ | .bool _, _ | .number _, _ | .string _, _ => by
    intro place member
    cases member
theorem itemPlaces_free : (items : List Value) → anyItemAnnotated items = false →
    ∀ place ∈ itemPlaces items, place.Free
  | [], _ => by
    intro place member
    cases member
  | item :: rest, free => by
    rw [anyItemAnnotated, Bool.or_eq_false_iff] at free
    intro place member
    rw [itemPlaces, List.mem_append] at member
    rcases member with member | member
    · exact placesIn_free none item free.1 place member
    · exact itemPlaces_free rest free.2 place member
theorem propertyPlaces_free (reached : Option (List String)) : (fields : List (String × Value)) →
    anyFieldAnnotated fields = false → ∀ place ∈ propertyPlaces reached fields, place.Free
  | [], _ => by
    intro place member
    cases member
  | (name, child) :: rest, free => by
    rw [anyFieldAnnotated, Bool.or_eq_false_iff] at free
    intro place member
    rw [propertyPlaces, List.mem_append] at member
    rcases member with member | member
    · exact placesIn_free _ child free.1 place member
    · exact propertyPlaces_free reached rest free.2 place member
theorem keywordPlace_free (reached : Option (List String)) : (field : String × Value) →
    containsHeaderAnnotation field.2 = false → ∀ place ∈ keywordPlace reached field, place.Free
  | (keyword, .object fields), free => by
    intro place member
    rw [keywordPlace] at member
    split_ifs at member with own properties
    · cases member
    · rw [ containsHeaderAnnotation, Bool.or_eq_false_iff] at free
      exact propertyPlaces_free reached fields free.2 place member
    · exact placesIn_free none (.object fields) free place member
  | (keyword, .array items), free => by
    intro place member
    rw [keywordPlace] at member
    · split_ifs at member with own
      · cases member
      · exact placesIn_free none (.array items) free place member
    · intro fields impossible
      cases impossible
  | (keyword, .null), _ | (keyword, .bool _), _ | (keyword, .number _), _ | (keyword, .string _), _ => by
    intro place member
    simp [keywordPlace, placesIn] at member
theorem keywordPlaces_free (reached : Option (List String)) : (fields : List (String × Value)) →
    anyFieldAnnotated fields = false → ∀ place ∈ keywordPlaces reached fields, place.Free
  | [], _ => by
    intro place member
    cases member
  | field :: rest, free => by
    rw [anyFieldAnnotated, Bool.or_eq_false_iff] at free
    intro place member
    rw [keywordPlaces, List.mem_append] at member
    rcases member with member | member
    · exact keywordPlace_free reached field free.1 place member
    · exact keywordPlaces_free reached rest free.2 place member
end

/-- The properties that lead somewhere, for a walk that knows whether there is more on the way. -/
def reachedIf (propertiesOnly : Bool) (path : List String) : Option (List String) :=
  if propertiesOnly then some path else none

theorem reachedIf_snoc (propertiesOnly : Bool) (path : List String) (name : String) :
    reachedIf propertiesOnly (path ++ [name]) = (reachedIf propertiesOnly path).map (· ++ [name]) := by
  cases propertiesOnly <;> rfl

theorem paramType_eq_ok_iff {path : List String} {schema : Value} {valueType : ToolParamType} :
    paramType path schema = .ok valueType ↔ schema.get "type" = some (.string valueType.name) := by
  unfold paramType
  constructor
  · intro declared
    cases found : schema.get "type" with
    | none =>
      rw [found] at declared
      cases declared
    | some value =>
      cases value with
      | string text =>
        rw [found] at declared
        simp only [Option.bind_some, Value.asStr] at declared
        split at declared
        case h_1 text same =>
          cases declared
          rw [Option.some.inj same]
          rfl
        case h_2 text same =>
          cases declared
          rw [Option.some.inj same]
          rfl
        case h_3 text same =>
          cases declared
          rw [Option.some.inj same]
          rfl
        case h_4 => cases declared
        case h_5 => cases declared
      | _ =>
        rw [found] at declared
        cases declared
  · intro declared
    rw [declared]
    cases valueType <;> rfl

/-- What a schema declares for itself, as its place allows. -/
theorem visitAnnotation_eq_ok_iff {path : List String} {propertiesOnly isProperty : Bool}
    (way : propertiesOnly = true → isProperty = !path.isEmpty) {before after : List ToolHeaderBinding}
    {fields : List (String × Value)} :
    visitAnnotation library path propertiesOnly isProperty before (.object fields) = .ok after ↔
      (Place.declared ⟨reachedIf propertiesOnly path, fields⟩ = none ∧ after = before) ∨
        ∃ binding, Binds library ⟨reachedIf propertiesOnly path, fields⟩ binding ∧
          (∀ other ∈ before, other.headerName ≠ binding.headerName) ∧ after = before ++ [binding] := by
  unfold visitAnnotation
  rw [Value.get]
  cases found : fields.lookup headerAnnotation with
  | none =>
    dsimp only
    constructor
    · intro same
      cases same
      exact .inl ⟨found, rfl⟩
    · rintro (⟨-, rfl⟩ | ⟨binding, ⟨header, declares, -⟩, -⟩)
      · rfl
      · have written := declares.written
        rw [Place.declared, found] at written
        cases written
  | some declared =>
    simp only [bind_eq_ok_iff, ensure_eq_ok_iff, require_eq_ok_iff, paramType_eq_ok_iff, pure_eq_ok_iff,
      Option.filter_eq_some_iff, Bool.and_eq_true, decide_eq_true_eq, List.all_eq_true]
    constructor
    · rintro ⟨-, ⟨only, property⟩, header, ⟨text, filled, token⟩, valueType, typed, headerName, named, -, fresh, rfl⟩
      refine .inr ⟨⟨headerName, path, valueType⟩, ⟨header, ⟨?_, ?_, ?_, filled, token, typed⟩, named⟩, fresh, rfl⟩
      · rw [reachedIf, if_pos only]
      · rintro rfl
        rw [way only] at property
        cases property
      · rw [Place.declared, found]
        cases declared with
        | string text => exact congrArg (some ∘ Value.string) (Option.some.inj text)
        | _ => cases text
    · rintro (⟨free, -⟩ | ⟨⟨headerName, reached, valueType⟩, ⟨header, declares, named⟩, fresh, rfl⟩)
      · rw [Place.declared, found] at free
        cases free
      · have written := declares.written
        rw [Place.declared, found] at written
        cases written
        have arrived := declares.reached
        cases propertiesOnly with
        | false => cases arrived
        | true =>
          cases arrived
          have property : isProperty = true := by
            rw [way rfl]
            simpa using declares.property
          exact ⟨(), ⟨rfl, property⟩, header, ⟨rfl, declares.filled, declares.token⟩, valueType, declares.typed,
            headerName, named, (), fresh, rfl⟩

mutual
theorem visitValue_eq_ok_iff (path : List String) (propertiesOnly isProperty : Bool)
    (way : propertiesOnly = true → isProperty = !path.isEmpty) : (value : Value) →
    (before after : List ToolHeaderBinding) →
    (visitValue library path propertiesOnly isProperty before value = .ok after ↔
      Collects library (placesIn (reachedIf propertiesOnly path) value) before after)
  | .object fields, before, after => by
    have keywords := fun between => visitKeywords_eq_ok_iff path propertiesOnly fields between after
    rw [visitValue, placesIn]
    constructor
    · intro visited
      split at visited
      case h_1 => cases visited
      case h_2 between own =>
        obtain ⟨readable, later⟩ := (keywords between).1 visited
        rcases (visitAnnotation_eq_ok_iff way).1 own with ⟨free, rfl⟩ | ⟨binding, binds, fresh, rfl⟩
        · exact .plain readable free later
        · exact .bound readable binds fresh later
    · intro collects
      cases collects with
      | plain readable free later =>
        rw [(visitAnnotation_eq_ok_iff way).2 (.inl ⟨free, rfl⟩)]
        exact (keywords before).2 ⟨readable, later⟩
      | bound readable binds fresh later =>
        rw [(visitAnnotation_eq_ok_iff way).2 (.inr ⟨_, binds, fresh, rfl⟩)]
        exact (keywords _).2 ⟨readable, later⟩
  | .array items, before, after => by
    rw [visitValue, placesIn]
    exact visitItems_eq_ok_iff path items before after
  | .null, before, after | .bool _, before, after | .number _, before, after | .string _, before, after => by
    simp only [visitValue, placesIn, collects_nil_iff, Except.ok.injEq]
    exact eq_comm
theorem visitItems_eq_ok_iff (path : List String) : (items : List Value) → (before after : List ToolHeaderBinding) →
    (visitItems library path before items = .ok after ↔ Collects library (itemPlaces items) before after)
  | [], before, after => by
    simp only [visitItems, itemPlaces, collects_nil_iff, Except.ok.injEq]
    exact eq_comm
  | item :: rest, before, after => by
    have here := fun between => visitValue_eq_ok_iff path false false (fun only => nomatch only) item before between
    have later := fun between => visitItems_eq_ok_iff path rest between after
    have both := exists_congr fun between => and_congr (here between) (later between)
    rw [visitItems, itemPlaces, collects_append_iff]
    refine Iff.trans ?_ both
    cases visitValue library path false false before item <;> simp
theorem visitProperties_eq_ok_iff (path : List String) (propertiesOnly : Bool) : (fields : List (String × Value)) →
    (before after : List ToolHeaderBinding) →
    (visitProperties library path propertiesOnly before fields = .ok after ↔
      Collects library (propertyPlaces (reachedIf propertiesOnly path) fields) before after)
  | [], before, after => by
    simp only [visitProperties, propertyPlaces, collects_nil_iff, Except.ok.injEq]
    exact eq_comm
  | (name, child) :: rest, before, after => by
    have property : propertiesOnly = true → true = !(path ++ [name]).isEmpty := by simp
    have here := fun between =>
      visitValue_eq_ok_iff (path ++ [name]) propertiesOnly true property child before between
    have later := fun between => visitProperties_eq_ok_iff path propertiesOnly rest between after
    rw [visitProperties, propertyPlaces, collects_append_iff, ← reachedIf_snoc,
      ← exists_congr fun between => and_congr (here between) (later between)]
    cases visitValue library (path ++ [name]) propertiesOnly true before child <;> simp
theorem visitKeyword_eq_ok_iff (path : List String) (propertiesOnly : Bool) : (field : String × Value) →
    (before after : List ToolHeaderBinding) → (visitKeyword library path propertiesOnly before field = .ok after ↔
      ReadableField field ∧ Collects library (keywordPlace (reachedIf propertiesOnly path) field) before after)
  | (keyword, .object fields), before, after => by
    have readable : ReadableField (keyword, .object fields) := fun _ => .inl rfl
    rw [visitKeyword, keywordPlace, and_iff_right readable]
    split_ifs with own properties annotated
    · rw [collects_nil_iff, Except.ok.injEq, eq_comm]
    · exact visitProperties_eq_ok_iff path propertiesOnly fields before after
    · exact visitValue_eq_ok_iff path false false (fun only => nomatch only) (.object fields) before after
    · rw [Except.ok.injEq]
      exact (collects_free_iff (placesIn_free none (.object fields) (Bool.eq_false_iff.2 annotated))).symm
  | (keyword, .array items), before, after => by
    have plain : ∀ fields, Value.array items = .object fields → False := fun _ impossible => nomatch impossible
    have visited := visitValue_eq_ok_iff path false false (fun only => nomatch only) (.array items) before after
    rw [visitKeyword, keywordPlace]
    · split_ifs with own free properties
      · have readable : ReadableField (keyword, .array items) :=
          fun properties => nomatch own.symm.trans properties
        rw [collects_nil_iff, Except.ok.injEq, and_iff_right readable, eq_comm]
      · have readable : ReadableField (keyword, .array items) := fun _ => .inr free
        rw [and_iff_right readable, Except.ok.injEq]
        exact (collects_free_iff (placesIn_free none (.array items) free)).symm
      · refine iff_of_false (fun impossible => nomatch impossible) fun ⟨readable, _⟩ => ?_
        exact (readable properties).elim (fun impossible => nomatch impossible) free
      · have readable : ReadableField (keyword, .array items) := fun named => absurd named properties
        rw [and_iff_right readable]
        exact visited
    · exact plain
    · exact plain
  | (keyword, .null), before, after | (keyword, .bool _), before, after | (keyword, .number _), before, after
  | (keyword, .string _), before, after => by
    simp only [visitKeyword, keywordPlace, placesIn, containsHeaderAnnotation, ReadableField, or_true, implies_true,
      true_and, if_true, ite_self, collects_nil_iff, Except.ok.injEq]
    exact eq_comm
theorem visitKeywords_eq_ok_iff (path : List String) (propertiesOnly : Bool) : (fields : List (String × Value)) →
    (before after : List ToolHeaderBinding) →
    (visitKeywords library path propertiesOnly before fields = .ok after ↔
      (∀ field ∈ fields, ReadableField field) ∧
        Collects library (keywordPlaces (reachedIf propertiesOnly path) fields) before after)
  | [], before, after => by
    simp only [visitKeywords, keywordPlaces, collects_nil_iff, Except.ok.injEq, List.not_mem_nil, false_implies,
      implies_true, true_and]
    exact eq_comm
  | field :: rest, before, after => by
    have here := fun between => visitKeyword_eq_ok_iff path propertiesOnly field before between
    have later := fun between => visitKeywords_eq_ok_iff path propertiesOnly rest between after
    rw [visitKeywords, keywordPlaces, collects_append_iff, List.forall_mem_cons]
    -- Whether the fields can be read does not depend on what is collected between them.
    have both : (ReadableField field ∧ ∀ other ∈ rest, ReadableField other) ∧ (∃ between,
        Collects library (keywordPlace (reachedIf propertiesOnly path) field) before between ∧
          Collects library (keywordPlaces (reachedIf propertiesOnly path) rest) between after) ↔
        ∃ between, visitKeyword library path propertiesOnly before field = .ok between ∧
          visitKeywords library path propertiesOnly between rest = .ok after := by
      simp only [here, later, ← exists_and_left, and_and_and_comm]
    rw [both]
    cases visitKeyword library path propertiesOnly before field <;> simp
end

/-! ## What is found -/

/-- Each header is bound once, in the order of the schemas. -/
theorem collects_iff {places : List Place} {before after : List ToolHeaderBinding}
    (unique : (before.map ToolHeaderBinding.headerName).Nodup) :
    Collects library places before after ↔ (∀ place ∈ places, place.Readable) ∧ ∃ found, after = before ++ found ∧
      List.Forall₂ (Binds library) (places.filter Place.isAnnotated) found ∧
      (after.map ToolHeaderBinding.headerName).Nodup := by
  constructor
  · intro collects
    induction collects with
    | done found => exact ⟨by simp, [], (List.append_nil found).symm, .nil, unique⟩
    | @plain place rest before after readable free _ ih =>
      obtain ⟨others, found, same, binds, distinct⟩ := ih unique
      have unnamed : ¬ place.isAnnotated = true := by
        rw [Place.isAnnotated, free]
        exact Bool.false_ne_true
      rw [List.filter_cons_of_neg unnamed]
      exact ⟨List.forall_mem_cons.2 ⟨readable, others⟩, found, same, binds, distinct⟩
    | @bound place rest before after binding readable binds fresh _ ih =>
      have more : ((before ++ [binding]).map ToolHeaderBinding.headerName).Nodup := by
        rw [List.map_append, List.map_singleton, ← List.concat_eq_append]
        refine unique.concat ?_
        rw [List.mem_map]
        rintro ⟨other, member, same⟩
        exact fresh other member same
      obtain ⟨others, found, same, bound, distinct⟩ := ih more
      obtain ⟨header, declares, -⟩ := binds.declares
      have named : place.isAnnotated = true := by
        rw [Place.isAnnotated, declares.written]
        rfl
      rw [List.filter_cons_of_pos named]
      refine ⟨List.forall_mem_cons.2 ⟨readable, others⟩, binding :: found, ?_, .cons binds bound, distinct⟩
      rw [same, List.append_assoc, List.singleton_append]
  · rintro ⟨readable, found, rfl, bound, distinct⟩
    induction places generalizing before found with
    | nil =>
      cases bound
      rw [List.append_nil]
      exact .done before
    | cons place rest ih =>
      obtain ⟨here, others⟩ := List.forall_mem_cons.1 readable
      cases named : place.declared with
      | none =>
        rw [List.filter_cons_of_neg (by simp [Place.isAnnotated, named])] at bound
        exact .plain here named (ih unique others found bound distinct)
      | some declared =>
        rw [List.filter_cons_of_pos (by simp [Place.isAnnotated, named])] at bound
        cases bound with
        | @cons _ binding _ found binds bound =>
          rw [List.append_cons] at distinct ⊢
          have more : ((before ++ [binding]).map ToolHeaderBinding.headerName).Nodup := by
            rw [List.map_append] at distinct
            exact distinct.of_append_left
          have fresh : ∀ other ∈ before, other.headerName ≠ binding.headerName := by
            rw [List.map_append, List.map_singleton] at more
            intro other member same
            exact List.disjoint_of_nodup_append more (List.mem_map_of_mem member) (List.mem_singleton.2 same)
          exact .bound here binds fresh (ih more others found bound distinct)

/-- The collection succeeds with one binding for each declared header, and with no two for one name. -/
theorem collectToolHeaderBindings_eq_ok_iff {schema : Value} {bindings : List ToolHeaderBinding} :
    collectToolHeaderBindings library schema = .ok bindings ↔ schema.isObject = true ∧
      (∀ place ∈ placesIn (some []) schema, place.Readable) ∧
      List.Forall₂ (Binds library) (headerPlaces schema) bindings ∧
      (bindings.map ToolHeaderBinding.headerName).Nodup := by
  unfold collectToolHeaderBindings
  split_ifs with shape
  · have visited := @visitValue_eq_ok_iff library [] true false (fun _ => rfl) schema [] bindings
    rw [visited, collects_iff (by simp), and_iff_right shape]
    refine and_congr_right fun _ => ?_
    constructor
    · rintro ⟨found, rfl, bound, distinct⟩
      exact ⟨bound, distinct⟩
    · rintro ⟨bound, distinct⟩
      exact ⟨bindings, rfl, bound, distinct⟩
  · refine iff_of_false (fun impossible => nomatch impossible) fun ⟨object, _⟩ => shape object

end

end McpTracer.Proxy.HttpReplay
