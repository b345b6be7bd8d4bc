import McpTracer.Foundation.Pointwise
import McpTracer.Proxy.HeaderBindings

/-! The headers that a tool call sends for its arguments.

A schema is accepted if each header it declares is declared where it may be. The call then has the headers of
the arguments that are there and no others of their kind, whatever headers were asked for besides.
-/

set_option autoImplicit false

namespace McpTracer.Proxy.HttpReplay
open McpTracer.Foundation McpTracer.Json

def Place.header (place : Place) : Option String := place.declared.bind Value.asStr

/-- Each header is declared where it may be, and no two are the same up to case. -/
structure DeclaresHeaders (schema : Value) : Prop where
  declared : ∀ place ∈ headerPlaces schema, ∃ header path valueType, Declares place header path valueType
  distinct : (((headerPlaces schema).filterMap Place.header).map String.toLower).Nodup

/-- What a schema must be besides: an object, with objects of properties, and headers that the library takes. -/
structure Collectable (library : HttpLibrary) (schema : Value) : Prop where
  shape : schema.isObject = true
  readable : ∀ place ∈ placesIn (some []) schema, place.Readable
  named : ∀ place ∈ headerPlaces schema, ∀ header, place.header = some header →
    (library.headerName ("mcp-param-" ++ header)).isSome = true

/-! ## Declarations and bindings -/

theorem Declares.header_eq {place : Place} {header : String} {path : List String} {valueType : ToolParamType}
    (declares : Declares place header path valueType) : place.header = some header := by
  rw [Place.header, declares.written]
  rfl

def paramName (header : String) : String := "mcp-param-" ++ header.toLower

theorem toLower_param (header : String) : ("mcp-param-" ++ header).toLower = paramName header := by
  have lowered (text : String) : text.toLower = text.map Char.toLower := rfl
  apply String.toList_injective
  rw [paramName, lowered, String.toList_map, String.toList_append, List.map_append, String.toList_append, lowered,
    String.toList_map]
  rfl

theorem append_injective (front : String) : Function.Injective fun back => front ++ back := by
  intro first second same
  have lists := congrArg String.toList same
  rw [String.toList_append, String.toList_append] at lists
  exact String.toList_injective (List.append_cancel_left lists)

section
variable {library : HttpLibrary}

theorem headerNames_eq (lowers : ∀ name lower, library.headerName name = some lower → lower = name.toLower)
    {places : List Place} {bindings : List ToolHeaderBinding} (bound : List.Forall₂ (Binds library) places bindings) :
    bindings.map ToolHeaderBinding.headerName = (places.filterMap Place.header).map paramName := by
  induction bound with
  | nil => rfl
  | cons binds _ ih =>
    obtain ⟨header, declares, named⟩ := binds.declares
    rw [List.filterMap_cons_some declares.header_eq, List.map_cons, List.map_cons, ih, lowers _ _ named, toLower_param]

theorem bindings_distinct_iff (lowers : ∀ name lower, library.headerName name = some lower → lower = name.toLower)
    {places : List Place} {bindings : List ToolHeaderBinding} (bound : List.Forall₂ (Binds library) places bindings) :
    (bindings.map ToolHeaderBinding.headerName).Nodup ↔
      ((places.filterMap Place.header).map String.toLower).Nodup := by
  have split : (places.filterMap Place.header).map paramName =
      ((places.filterMap Place.header).map String.toLower).map fun lower => "mcp-param-" ++ lower := by
    rw [List.map_map]
    rfl
  rw [headerNames_eq lowers bound, split, List.nodup_map_iff (append_injective _)]

theorem exists_bindings {places : List Place}
    (declared : ∀ place ∈ places, ∃ header path valueType, Declares place header path valueType)
    (named : ∀ place ∈ places, ∀ header, place.header = some header →
      (library.headerName ("mcp-param-" ++ header)).isSome = true) :
    ∃ bindings, List.Forall₂ (Binds library) places bindings := by
  induction places with
  | nil => exact ⟨[], .nil⟩
  | cons place rest ih =>
    obtain ⟨⟨header, path, valueType, declares⟩, others⟩ := List.forall_mem_cons.1 declared
    obtain ⟨here, later⟩ := List.forall_mem_cons.1 named
    obtain ⟨bindings, bound⟩ := ih others later
    obtain ⟨headerName, found⟩ := Option.isSome_iff_exists.1 (here header declares.header_eq)
    exact ⟨⟨headerName, path, valueType⟩ :: bindings, .cons ⟨header, declares, found⟩ bound⟩

theorem exists_collected_iff (lowers : ∀ name lower, library.headerName name = some lower → lower = name.toLower)
    (schema : Value) : (∃ bindings, collectToolHeaderBindings library schema = .ok bindings) ↔
      DeclaresHeaders schema ∧ Collectable library schema := by
  simp only [collectToolHeaderBindings_eq_ok_iff]
  constructor
  · rintro ⟨bindings, shape, readable, bound, distinct⟩
    have binds : ∀ place ∈ headerPlaces schema, ∃ binding, Binds library place binding := by
      intro place member
      obtain ⟨binding, -, binds⟩ := exists_of_forall₂_right bound.flip member
      exact ⟨binding, binds⟩
    refine ⟨⟨fun place member => ?_, (bindings_distinct_iff lowers bound).1 distinct⟩, shape, readable, ?_⟩
    · obtain ⟨binding, header, declares, -⟩ := binds place member
      exact ⟨header, binding.path, binding.valueType, declares⟩
    · intro place member header found
      obtain ⟨binding, other, declares, named⟩ := binds place member
      obtain rfl : other = header := Option.some.inj (declares.header_eq.symm.trans found)
      rw [named]
      rfl
  · rintro ⟨declared, collectable⟩
    obtain ⟨bindings, bound⟩ := exists_bindings declared.declared collectable.named
    exact ⟨bindings, collectable.shape, collectable.readable, bound,
      (bindings_distinct_iff lowers bound).2 declared.distinct⟩

/-! ## What is sent for an argument -/

def argumentAt (request : Value) (path : List String) : Option Value :=
  request.getPath ("params" :: "arguments" :: path)

/-- Arguments as their schemas declare them, and integers that scripts can represent. -/
def HasType : ToolParamType → Value → Prop
  | .string, .string _ => True
  | .boolean, .bool _ => True
  | .integer, .number n => ∃ i, n.asI64 = some i ∧ i.natAbs ≤ maxSafeInteger
  | _, _ => False

/-- The text of an argument in a header. -/
def argumentText (library : HttpLibrary) : Value → Option String
  | .string text => some (encodeMcpHeaderValue library text)
  | .bool b => some (toString b)
  | .number n => n.asI64.map toString
  | _ => none

/-- The header for an argument, if the argument is there. -/
def boundHeader (library : HttpLibrary) (request : Value) (binding : ToolHeaderBinding) : Option (String × String) :=
  (argumentAt request binding.path).bind fun value =>
    (argumentText library value).map fun text => (binding.headerName, text)

theorem encodeToolHeaderValue_typed {value : Value} {binding : ToolHeaderBinding}
    (typed : HasType binding.valueType value) :
    ∃ text, argumentText library value = some text ∧ encodeToolHeaderValue library value binding = .ok text := by
  obtain ⟨headerName, path, valueType⟩ := binding
  cases valueType with
  | string =>
    cases value with
    | string text => exact ⟨_, rfl, rfl⟩
    | _ => cases typed
  | boolean =>
    cases value with
    | bool b => exact ⟨_, rfl, rfl⟩
    | _ => cases typed
  | integer =>
    cases value with
    | number n =>
      obtain ⟨i, found, safe⟩ := typed
      have kept : ((Value.number n).asI64.filter fun i => i.natAbs ≤ maxSafeInteger) = some i :=
        Option.filter_eq_some_iff.2 ⟨found, decide_eq_true safe⟩
      refine ⟨toString i, ?_, ?_⟩
      · rw [argumentText, found]
        rfl
      · unfold encodeToolHeaderValue
        dsimp only
        rw [kept]
        rfl
    | _ => cases typed

theorem isHeaderChar_digit {c : Char} (digit : c.isDigit = true) : isHeaderChar c = true := by
  have bounds := Char.isDigit_iff_toNat.1 digit
  have low : '0'.toNat = 48 := rfl
  have high : '9'.toNat = 57 := rfl
  simp only [isHeaderChar, Bool.or_eq_true, Bool.and_eq_true, decide_eq_true_eq]
  omega

theorem isHeaderChar_integer (i : Int) : ∀ c ∈ (toString i).toList, isHeaderChar c = true := by
  have digits (n : Nat) : ∀ c ∈ (toString n).toList, isHeaderChar c = true := by
    intro c member
    rw [Nat.toString_eq_ofList_toDigits, String.toList_ofList] at member
    exact isHeaderChar_digit (Nat.isDigit_of_mem_toDigits (by omega) (by omega) member)
  cases i with
  | ofNat n => exact digits n
  | negSucc n =>
    intro c member
    change c ∈ ("-" ++ toString (n + 1)).toList at member
    rw [String.toList_append, List.mem_append] at member
    rcases member with sign | member
    · rw [List.mem_singleton.1 sign]
      rfl
    · exact digits (n + 1) c member

theorem headerValue_argumentText {decode : String → Option String} (encodes : Encodes library decode) {value : Value}
    {text : String} (found : argumentText library value = some text) : library.headerValue text = true := by
  cases value with
  | string plain =>
    cases found
    exact headerValue_encodeMcpHeaderValue encodes plain
  | bool b =>
    cases found
    have plain : (toString b).toList.all isHeaderChar = true := by cases b <;> decide
    exact encodes.accepted _ (List.all_eq_true.1 plain)
  | number n =>
    obtain ⟨i, -, rfl⟩ := Option.map_eq_some_iff.1 found
    exact encodes.accepted _ (isHeaderChar_integer i)
  | _ => cases found

/-! ## The headers of a request -/

namespace HeaderMap

def names (headers : HeaderMap) : List String := List.map Prod.fst headers

def appendAll (headers : HeaderMap) (more : List (String × String)) : HeaderMap := List.append headers more

theorem appendAll_nil (headers : HeaderMap) : headers.appendAll [] = headers := List.append_nil _

theorem appendAll_appendAll (headers : HeaderMap) (more last : List (String × String)) :
    (headers.appendAll more).appendAll last = headers.appendAll (more ++ last) := List.append_assoc _ _ _

theorem names_appendAll (headers : HeaderMap) (more : List (String × String)) :
    (headers.appendAll more).names = headers.names ++ more.map Prod.fst := List.map_append

theorem filter_fresh {name : String} {headers : List (String × String)} (fresh : name ∉ headers.map Prod.fst) :
    headers.filter (fun header => header.1 ≠ name) = headers := by
  refine List.filter_eq_self.2 fun header member => decide_eq_true ?_
  exact fun same => fresh (same ▸ List.mem_map_of_mem member)

theorem insert_fresh {headers : HeaderMap} {name : String} (fresh : name ∉ headers.names) (value : String) :
    headers.insert name value = headers.appendAll [(name, value)] :=
  congrArg (fun kept : HeaderMap => kept.append name value) (filter_fresh fresh)

end HeaderMap

theorem insertToolHeaders_cons (request : Value) (binding : ToolHeaderBinding) (rest : List ToolHeaderBinding)
    (headers : HeaderMap) : insertToolHeaders library request (binding :: rest) headers =
      insertToolHeader library request headers binding >>= insertToolHeaders library request rest := rfl

/-- New names are bound behind the headers that are there. -/
theorem insertToolHeaders_eq_ok {decode : String → Option String} (encodes : Encodes library decode) {request : Value}
    {bindings : List ToolHeaderBinding} {headers : HeaderMap}
    (fresh : ∀ binding ∈ bindings, binding.headerName ∉ headers.names)
    (distinct : (bindings.map ToolHeaderBinding.headerName).Nodup)
    (typed : ∀ binding ∈ bindings, ∀ value, argumentAt request binding.path = some value →
      HasType binding.valueType value) :
    insertToolHeaders library request bindings headers =
      .ok (headers.appendAll (bindings.filterMap (boundHeader library request))) := by
  induction bindings generalizing headers with
  | nil =>
    rw [List.filterMap_nil, HeaderMap.appendAll_nil]
    rfl
  | cons binding rest ih =>
    obtain ⟨new, others⟩ := List.forall_mem_cons.1 fresh
    obtain ⟨here, later⟩ := List.forall_mem_cons.1 typed
    obtain ⟨unlike, distinct⟩ := List.nodup_cons.1 distinct
    rw [insertToolHeaders_cons]
    cases found : argumentAt request binding.path with
    | none =>
      have skipped : insertToolHeader library request headers binding = .ok headers := by
        unfold insertToolHeader
        rw [argumentAt] at found
        rw [found]
      have unbound : boundHeader library request binding = none := by rw [boundHeader, found, Option.bind_none]
      rw [skipped, List.filterMap_cons_none unbound]
      exact ih others distinct later
    | some value =>
      obtain ⟨text, expected, encoded⟩ : ∃ text, argumentText library value = some text ∧
          encodeToolHeaderValue library value binding = .ok text := encodeToolHeaderValue_typed (here value found)
      have inserted : insertToolHeader library request headers binding =
          .ok (headers.appendAll [(binding.headerName, text)]) := by
        unfold insertToolHeader
        rw [argumentAt] at found
        rw [found]
        simp only [bind_eq_ok_iff, ensure_eq_ok_iff, pure_eq_ok_iff]
        exact ⟨text, encoded, (), headerValue_argumentText encodes expected, HeaderMap.insert_fresh new text⟩
      have bound : boundHeader library request binding = some (binding.headerName, text) := by
        rw [boundHeader, found, Option.bind_some, expected, Option.map_some]
      have still : ∀ other ∈ rest, other.headerName ∉ (headers.appendAll [(binding.headerName, text)]).names := by
        intro other member inside
        rw [HeaderMap.names_appendAll, List.mem_append] at inside
        rcases inside with old | last
        · exact others other member old
        · have same : other.headerName = binding.headerName := List.mem_singleton.1 last
          exact unlike (same ▸ List.mem_map_of_mem member)
      have behind := ih still distinct later
      rw [HeaderMap.appendAll_appendAll] at behind
      rw [inserted, List.filterMap_cons_some bound]
      exact behind

def isParamName (name : String) : Bool := "mcp-param-".toList.isPrefixOf name.toList

theorem isParamName_paramName (header : String) : isParamName (paramName header) = true := by
  rw [isParamName, paramName, String.toList_append, List.isPrefixOf_iff_prefix]
  exact List.prefix_append _ _

/-- The headers for the arguments of tools. -/
def HeaderMap.params (headers : HeaderMap) : List (String × String) :=
  List.filter (fun header => isParamName header.1) headers

theorem filter_replaced {name : String} (other : isParamName name = false) (headers : List (String × String))
    (value : String) : (headers.filter (fun header => header.1 ≠ name) ++ [(name, value)]).filter
      (fun header => isParamName header.1) = headers.filter fun header => isParamName header.1 := by
  have last : [(name, value)].filter (fun header : String × String => isParamName header.1) = [] := by
    rw [List.filter_singleton, other]
    rfl
  rw [List.filter_append, last, List.append_nil, List.filter_filter]
  refine List.filter_congr fun header _ => ?_
  by_cases same : header.1 = name
  · rw [same, other]
    rfl
  · rw [decide_eq_true same, Bool.and_true]

theorem params_insert {name : String} (other : isParamName name = false) (headers : HeaderMap) (value : String) :
    (headers.insert name value).params = headers.params := filter_replaced other headers value

theorem insertHeader_eq_ok_iff {name value : String} {headers after : HeaderMap} :
    insertHeader library headers name value = .ok after ↔
      library.headerValue value = true ∧ headers.insert name value = after := by
  unfold insertHeader
  split_ifs with valid
  · rw [Except.ok.injEq, and_iff_right valid]
  · exact iff_of_false id fun both => valid both.1

theorem insertMcpName_params {method : String} {request : Value} {headers after : HeaderMap}
    (named : insertMcpName library method request headers = .ok after) :
    after.params = headers.params ∧ ∀ others, ∃ last, insertMcpName library method request others = .ok last := by
  unfold insertMcpName at named ⊢
  cases required : requiredNameField method with
  | none =>
    rw [required] at named
    cases named
    exact ⟨rfl, fun others => ⟨others, rfl⟩⟩
  | some nameField =>
    rw [required] at named
    simp only [bind_eq_ok_iff, require_eq_ok_iff, insertHeader_eq_ok_iff] at named ⊢
    obtain ⟨name, found, valid, rfl⟩ := named
    exact ⟨params_insert (by decide) _ _, fun others => ⟨_, name, found, valid, rfl⟩⟩

/-- What is routed by has headers of other names, and does not depend on the headers that are there. -/
theorem insertRouting_params {sessionId : Option String} {request : Value} {headers after : HeaderMap}
    (routed : insertRouting library sessionId request headers = .ok after) :
    after.params = headers.params ∧
      ∀ others, ∃ last, insertRouting library sessionId request others = .ok last := by
  unfold insertRouting at routed ⊢
  cases version : modernProtocolVersion request with
  | some protocolVersion =>
    rw [version] at routed
    simp only [bind_eq_ok_iff, require_eq_ok_iff, insertHeader_eq_ok_iff] at routed ⊢
    obtain ⟨_, ⟨validVersion, rfl⟩, method, found, _, ⟨validMethod, rfl⟩, named⟩ := routed
    obtain ⟨same, again⟩ := insertMcpName_params named
    refine ⟨?_, fun others => ?_⟩
    · rw [same, params_insert (by decide), params_insert (by decide)]
    · obtain ⟨last, done⟩ := again ((others.insert "mcp-protocol-version" protocolVersion).insert "mcp-method" method)
      exact ⟨last, _, ⟨validVersion, rfl⟩, method, found, _, ⟨validMethod, rfl⟩, done⟩
  | none =>
    rw [version] at routed
    dsimp only at routed ⊢
    cases established : sessionId.filter library.headerValue with
    | none =>
      rw [established] at routed
      cases routed
      exact ⟨rfl, fun others => ⟨others, rfl⟩⟩
    | some sessionId =>
      rw [established] at routed
      cases routed
      exact ⟨params_insert (by decide) _ _, fun others => ⟨_, rfl⟩⟩

/-- The headers that were asked for, without those that only a schema can ask for. -/
def HeaderMap.withoutParams (extra : HeaderMap) : HeaderMap := List.filter (fun header => !isParamName header.1) extra

theorem names_withoutParams {extra : HeaderMap} {name : String} (member : name ∈ extra.withoutParams.names) :
    isParamName name = false := by
  obtain ⟨header, kept, rfl⟩ := List.mem_map.1 member
  have other := (List.mem_filter.1 kept).2
  rwa [Bool.not_eq_true'] at other

theorem params_appendAll {headers : HeaderMap} {more : List (String × String)}
    (plain : ∀ name ∈ headers.names, isParamName name = false)
    (params : ∀ header ∈ more, isParamName header.1 = true) :
    (headers.appendAll more).params = more := by
  have front : List.filter (fun header : String × String => isParamName header.1) headers = [] := by
    refine List.filter_eq_nil_iff.2 fun header member => ?_
    rw [plain header.1 (List.mem_map_of_mem member)]
    exact Bool.false_ne_true
  have appended : (headers.appendAll more).params =
      List.filter (fun header => isParamName header.1) headers ++ more.filter fun header => isParamName header.1 :=
    List.filter_append _ _
  rw [appended, front, List.nil_append, List.filter_eq_self.2 params]

/-- For a tool call the headers are those of the bindings, and what else is always sent. -/
theorem buildRequestHeaders_modern {request : Value} {name : String} (modern : modernToolName request = .ok (some name))
    (extra : HeaderMap) (sessionId : Option String) (bindings : List ToolHeaderBinding) :
    buildRequestHeaders library extra sessionId request bindings =
      insertToolHeaders library request bindings extra.withoutParams >>= fun headers =>
        insertRouting library sessionId request ((headers.insert "content-type" "application/json").insert "accept"
          "application/json, text/event-stream") := by
  unfold buildRequestHeaders
  rw [modern]
  rfl

/-- The headers for arguments are those of the bindings, and binding them is never what fails. -/
theorem buildRequestHeaders_params {decode : String → Option String} (encodes : Encodes library decode)
    {request : Value} {name : String} (modern : modernToolName request = .ok (some name))
    {bindings : List ToolHeaderBinding} (params : ∀ binding ∈ bindings, isParamName binding.headerName = true)
    (distinct : (bindings.map ToolHeaderBinding.headerName).Nodup)
    (typed : ∀ binding ∈ bindings, ∀ value, argumentAt request binding.path = some value →
      HasType binding.valueType value) (extra : HeaderMap) (sessionId : Option String) :
    ((∃ headers, buildRequestHeaders library extra sessionId request bindings = .ok headers) ↔
      ∃ headers, buildRequestHeaders library extra sessionId request [] = .ok headers) ∧
    ∀ headers, buildRequestHeaders library extra sessionId request bindings = .ok headers →
      headers.params = bindings.filterMap (boundHeader library request) := by
  have fresh : ∀ binding ∈ bindings, binding.headerName ∉ extra.withoutParams.names := by
    intro binding member inside
    exact Bool.false_ne_true ((names_withoutParams inside).symm.trans (params binding member))
  have bound := insertToolHeaders_eq_ok encodes fresh distinct typed
  have none : insertToolHeaders library request [] extra.withoutParams = .ok extra.withoutParams := rfl
  rw [buildRequestHeaders_modern modern, buildRequestHeaders_modern modern, bound, none]
  refine ⟨⟨fun ⟨_, sent⟩ => (insertRouting_params sent).2 _, fun ⟨_, sent⟩ => (insertRouting_params sent).2 _⟩,
    fun headers sent => ?_⟩
  rw [(insertRouting_params sent).1, params_insert (by decide), params_insert (by decide)]
  refine params_appendAll (fun name => names_withoutParams) fun header member => ?_
  obtain ⟨binding, inside, found⟩ := List.mem_filterMap.1 member
  obtain ⟨value, -, named⟩ := Option.bind_eq_some_iff.1 found
  obtain ⟨text, -, rfl⟩ := Option.map_eq_some_iff.1 named
  exact params binding inside

/-- The collection accepts exactly the schemas that declare their headers where they may be, and binds each of
them. A call with arguments of the declared types then has their headers and no others for arguments, and fails
only if it would without them. -/
theorem header_bindings_exact {decode : String → Option String}
    (lowers : ∀ name lower, library.headerName name = some lower → lower = name.toLower)
    (encodes : Encodes library decode) (schema : Value) :
    ((∃ bindings, collectToolHeaderBindings library schema = .ok bindings) ↔
      DeclaresHeaders schema ∧ Collectable library schema) ∧
    ∀ bindings, collectToolHeaderBindings library schema = .ok bindings →
      List.Forall₂ (Binds library) (headerPlaces schema) bindings ∧
      ∀ (request : Value) (name : String), modernToolName request = .ok (some name) →
        (∀ binding ∈ bindings, ∀ value, argumentAt request binding.path = some value →
          HasType binding.valueType value) →
        ∀ (extra : HeaderMap) (sessionId : Option String),
          ((∃ headers, buildRequestHeaders library extra sessionId request bindings = .ok headers) ↔
            ∃ headers, buildRequestHeaders library extra sessionId request [] = .ok headers) ∧
          ∀ headers, buildRequestHeaders library extra sessionId request bindings = .ok headers →
            headers.params = bindings.filterMap (boundHeader library request) := by
  refine ⟨exists_collected_iff lowers schema, fun bindings collected => ?_⟩
  obtain ⟨-, -, bound, distinct⟩ := collectToolHeaderBindings_eq_ok_iff.1 collected
  refine ⟨bound, fun request name modern typed extra sessionId => ?_⟩
  refine buildRequestHeaders_params encodes modern (fun binding member => ?_) distinct typed extra sessionId
  obtain ⟨place, -, header, -, named⟩ := exists_of_forall₂_right bound member
  rw [lowers _ _ named, toLower_param]
  exact isParamName_paramName header

end

theorem standardLibrary_lowers (name lower : String) (found : standardLibrary.headerName name = some lower) :
    lower = name.toLower := by
  simp only [standardLibrary, Option.ite_none_right_eq_some, Option.some.injEq] at found
  exact found.2.symm

/-- A schema with one property, whose argument is sent in a header. -/
def schemaWithHeader (header : String) : Value :=
  .object [("properties", .object [("a", .object [("type", .string "string"), ( headerAnnotation, .string header)])]),
    ("type", .string "object")]

def callWith (argument : String) : Value :=
  .object [("method", .string "tools/call"), ("params", .object [
    ("_meta", .object [("io.modelcontextprotocol/protocolVersion", .string "2026-07-28")]),
    ("arguments", .object [("a", .string argument)]), ("name", .string "lookup")])]

theorem headerPlaces_schemaWithHeader (header : String) : headerPlaces (schemaWithHeader header) =
    [⟨some ["a"], [("type", .string "string"), ( headerAnnotation, .string header)]⟩] := rfl

theorem declares_schemaWithHeader {header : String} (filled : header ≠ "") (token : isHttpToken header = true) :
    DeclaresHeaders (schemaWithHeader header) where
  declared := by
    rw [headerPlaces_schemaWithHeader]
    intro place member
    rw [List.mem_singleton.1 member]
    exact ⟨header, ["a"], .string, rfl, by decide, rfl, filled, token, rfl⟩
  distinct := List.nodup_singleton _

theorem header_bindings_exact_region :
    ∃ bindings, collectToolHeaderBindings standardLibrary (schemaWithHeader "Region") = .ok bindings ∧
      ∀ sessionId headers, buildRequestHeaders standardLibrary [("mcp-param-region", "forged")] sessionId
        (callWith "eu") bindings = .ok headers → headers.params = [("mcp-param-region", "eu")] := by
  have exact := header_bindings_exact standardLibrary_lowers standardLibrary_encodes (schemaWithHeader "Region")
  have collected : collectToolHeaderBindings standardLibrary (schemaWithHeader "Region") =
      .ok [⟨"mcp-param-region", ["a"], .string⟩] := by decide +kernel
  refine ⟨_, collected, fun sessionId headers sent => ?_⟩
  have modern : modernToolName (callWith "eu") = .ok (some "lookup") := by decide +kernel
  have typed : ∀ binding ∈ ([⟨"mcp-param-region", ["a"], .string⟩] : List ToolHeaderBinding), ∀ value,
      argumentAt (callWith "eu") binding.path = some value → HasType binding.valueType value := by
    intro binding member value found
    rw [List.mem_singleton.1 member] at found ⊢
    cases found
    exact trivial
  have params := ((exact.2 _ collected).2 _ _ modern typed _ sessionId).2 headers sent
  rw [params]
  decide +kernel

/-- A property has the name of the annotation, in what is no object of properties. -/
def listedProperties : Value :=
  .object [("properties", .array [.object [("properties", .object [( headerAnnotation, .object [])])]])]

def letters (count : Nat) : String := String.ofList (List.replicate count 'a')

theorem declares_none {schema : Value} (none : headerPlaces schema = []) : DeclaresHeaders schema where
  declared := by
    rw [none]
    exact fun place member => nomatch member
  distinct := by
    rw [none]
    exact List.nodup_nil

theorem declares_letters {count : Nat} (positive : 0 < count) : DeclaresHeaders (schemaWithHeader (letters count)) := by
  have chars : (letters count).toList = List.replicate count 'a' := String.toList_ofList
  refine declares_schemaWithHeader (fun empty => ?_) ?_
  · rw [empty] at chars
    have length := congrArg List.length chars
    rw [List.length_replicate] at length
    exact absurd length positive.ne
  · rw [isHttpToken, chars, List.all_eq_true]
    intro c member
    rw [List.eq_of_mem_replicate member]
    decide

theorem length_letters (count : Nat) : (letters count).length = count := by
  rw [letters, String.length_ofList, List.length_replicate]

theorem headerName_letters {count : Nat} (long : maxHeaderNameLength ≤ count) :
    standardLibrary.headerName ("mcp-param-" ++ letters count) = none := by
  have length : ("mcp-param-" ++ letters count).length = "mcp-param-".length + count := by
    rw [String.length_append, length_letters]
  have positive : 0 < "mcp-param-".length := by decide
  refine if_neg fun ⟨_, _, short⟩ => ?_
  rw [length] at short
  omega

/-- What is no object, has no object of properties, or names a header too long for the library is refused, although
no header is declared where it may not be. -/
theorem declared_headers_refused :
    (DeclaresHeaders (.bool true) ∧
      ¬ ∃ bindings, collectToolHeaderBindings standardLibrary (.bool true) = .ok bindings) ∧
    (DeclaresHeaders listedProperties ∧
      ¬ ∃ bindings, collectToolHeaderBindings standardLibrary listedProperties = .ok bindings) ∧
    (DeclaresHeaders (schemaWithHeader (letters maxHeaderNameLength)) ∧
      ¬ ∃ bindings, collectToolHeaderBindings standardLibrary (schemaWithHeader (letters maxHeaderNameLength)) =
        .ok bindings) := by
  have only := exists_collected_iff standardLibrary_lowers
  refine ⟨⟨declares_none rfl, fun collected => ?_⟩, ⟨declares_none rfl, fun collected => ?_⟩,
    declares_letters (by decide), fun collected => ?_⟩
  · cases ((only _).1 collected).2.shape
  · have readable := ((only _).1 collected).2.readable _ List.mem_cons_self _ List.mem_cons_self rfl
    revert readable
    decide
  · have named := ((only _).1 collected).2.named _ List.mem_cons_self _ rfl
    rw [headerName_letters le_rfl] at named
    cases named

end McpTracer.Proxy.HttpReplay
