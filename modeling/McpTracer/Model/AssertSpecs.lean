import McpTracer.Foundation.Toml
import McpTracer.Json.Schema
import McpTracer.Model.Assertions

/-! Assertion files, read and checked.

The reader of documents is a parameter. A document becomes a specification by the names of its fields, as their
declarations say, and a specification is refused when a bound or a scope is missing or makes no sense.
-/

set_option autoImplicit false

namespace McpTracer.Model
open McpTracer.Foundation McpTracer.Json

/-! ## Specifications -/

/-- A double, read exactly. One that is not finite has no value. -/
abbrev Double := Option ℚ

inductive SpecRule where
  /-- A rule on exchanges, payloads or tools. -/
  | rule (rule : Assertion)
  /-- Bounds over answered exchanges in scope. -/
  | latency (tool method : Option String) (p50UnderMs p95UnderMs maxUnderMs : Option Double)
  /-- Rate and burst bounds for the session. -/
  | quota (preset : Option String) (refillRate capacity : Option Double) (maxViolations : Option Nat)
      (maxBurstFactor : Option Double) (maxPeakTokensPerSec : Option Nat)

/-- An optional label and the rule itself. -/
structure SpecEntry where
  description : Option String
  rule : SpecRule

structure AssertSpec where
  assertions : List SpecEntry

/-! ## Fields -/

abbrev Fields := List (String × TomlValue)

def required {A : Type} (read : TomlValue → Option A) (key : String) (fields : Fields) : Option A :=
  (fields.lookup key).bind read

def optional {A : Type} (read : TomlValue → Option A) (key : String) (fields : Fields) : Option (Option A) :=
  match fields.lookup key with
  | some value => (read value).map some
  | none => some none

def tomlText : TomlValue → Option String
  | .string text => some text
  | _ => none

def tomlCount : TomlValue → Option Nat
  | .integer n => if 0 ≤ n then some n.toNat else none
  | _ => none

def tomlDouble : TomlValue → Option Double
  | .integer n => some (some (n : ℚ))
  | .float bits =>
    some (if finite : bits.extractLsb' 52 11 ≠ BitVec.allOnes 11 then some (F64.toRat ⟨bits, finite⟩) else none)
  | _ => none

def tomlTexts : TomlValue → Option (List (String × String))
  | .table entries => entries.mapM fun entry => (tomlText entry.2).map fun text => (entry.1, text)
  | _ => none

/-- A kind of rule: the fields it may have, and what it makes of them. -/
structure Variant where
  fields : List String
  decode : Fields → Option SpecRule

/-- The kinds by the names that select them. -/
def variants : List (String × Variant) := [
  ("no_errors", ["tool"], fun fields => do
    let tool ← optional tomlText "tool" fields
    return .rule (.noErrors tool)),
  ("tool_called", ["tool", "min", "max"], fun fields => do
    let tool ← required tomlText "tool" fields
    let min ← optional tomlCount "min" fields
    let max ← optional tomlCount "max" fields
    return .rule (.toolCalled tool min max)),
  ("method_called", ["method", "min", "max"], fun fields => do
    let method ← required tomlText "method" fields
    let min ← optional tomlCount "min" fields
    let max ← optional tomlCount "max" fields
    return .rule (.methodCalled method min max)),
  ("call_order", ["before", "after"], fun fields => do
    let before ← required tomlText "before" fields
    let after ← required tomlText "after" fields
    return .rule (.callOrder before after)),
  ("latency", ["tool", "method", "p50_under_ms", "p95_under_ms", "max_under_ms"], fun fields => do
    let tool ← optional tomlText "tool" fields
    let method ← optional tomlText "method" fields
    let p50UnderMs ← optional tomlDouble "p50_under_ms" fields
    let p95UnderMs ← optional tomlDouble "p95_under_ms" fields
    let maxUnderMs ← optional tomlDouble "max_under_ms" fields
    return .latency tool method p50UnderMs p95UnderMs maxUnderMs),
  ("response_matches", ["tool", "method", "pointer", "equals", "contains"], fun fields => do
    let tool ← optional tomlText "tool" fields
    let method ← optional tomlText "method" fields
    let pointer ← required tomlText "pointer" fields
    let contains ← optional tomlText "contains" fields
    return .rule (.responseMatches tool method pointer (fields.lookup "equals") contains)),
  ("tools_pinned", ["hashes"], fun fields => do
    let hashes ← optional tomlTexts "hashes" fields
    return .rule (.toolsPinned (hashes.getD []))),
  ("quota", ["preset", "refill_rate", "capacity", "max_violations", "max_burst_factor", "max_peak_tokens_per_sec"],
    fun fields => do
      let preset ← optional tomlText "preset" fields
      let refillRate ← optional tomlDouble "refill_rate" fields
      let capacity ← optional tomlDouble "capacity" fields
      let maxViolations ← optional tomlCount "max_violations" fields
      let maxBurstFactor ← optional tomlDouble "max_burst_factor" fields
      let maxPeakTokensPerSec ← optional tomlCount "max_peak_tokens_per_sec" fields
      return .quota preset refillRate capacity maxViolations maxBurstFactor maxPeakTokensPerSec)].map
    fun variant => (variant.1, ⟨variant.2.1, variant.2.2⟩)

/-- The kind selects the rule, and no other field than its own may be there. -/
def decodeRule (fields : Fields) : Option SpecRule := do
  let kind ← required tomlText "kind" fields
  let variant ← variants.lookup kind
  if fields.all fun field => ("description" :: "kind" :: variant.fields).contains field.1 then variant.decode fields
  else none

def decodeEntry : TomlValue → Option SpecEntry
  | .table fields => do
    let description ← optional tomlText "description" fields
    let rule ← decodeRule fields
    return ⟨description, rule⟩
  | _ => none

/-- The entries stand under either name, but not under both. -/
def decodeSpec (table : Fields) : Option AssertSpec :=
  if table.all fun field => field.1 = "assert" || field.1 = "assertions" then
    match table.lookup "assert", table.lookup "assertions" with
    | none, none => some ⟨[]⟩
    | some (.array items), none => (items.mapM decodeEntry).map AssertSpec.mk
    | none, some (.array items) => (items.mapM decodeEntry).map AssertSpec.mk
    | _, _ => none
  else none

/-! ## Checks -/

/-- The letters of a text in lower case. Only the sign of the unit kelvin becomes an ASCII letter without being one. -/
def lowerCase (text : String) : String := text.map fun c => if c = '\u212a' then 'k' else c.toLower

def isKnownPreset (name : String) : Bool :=
  ["openai-tier1", "openai-tier2", "openai-tier3", "anthropic-tier1", "anthropic-tier2", "groq-llama3"].contains
    (lowerCase name)

def boundError (name : String) (bound : Option Double) : Option String :=
  match bound with
  | some value =>
    if value.any fun q => 0 ≤ q then none
    else some ("latency assertion `" ++ name ++ "` must be a finite non-negative number")
  | none => none

/-- What is wrong with an entry. -/
def entryError (entry : SpecEntry) : Option String :=
  match entry.rule with
  | .latency _ _ p50UnderMs p95UnderMs maxUnderMs =>
    if p50UnderMs.isNone && p95UnderMs.isNone && maxUnderMs.isNone then
      some "latency assertion needs one of p50_under_ms/p95_under_ms/max_under_ms"
    else
      [("p50_under_ms", p50UnderMs), ("p95_under_ms", p95UnderMs), ("max_under_ms", maxUnderMs)].findSome?
        fun bound => boundError bound.1 bound.2
  | .rule (.responseMatches _ _ _ equals contains) =>
    if equals.isNone && contains.isNone then some "response_matches needs `equals` or `contains`" else none
  | .quota preset refillRate capacity _ _ _ =>
    if refillRate.isSome && capacity.isSome then none
    else
      match preset with
      | some name =>
        if isKnownPreset name then none
        else some ("quota assertion has unknown preset `" ++ name ++
          "`; provide a valid preset or both refill_rate and capacity")
      | none => some "quota assertion needs `preset`, or both `refill_rate` and `capacity`"
  | _ => none

/-- The reader of documents. -/
structure TomlLibrary where
  /-- The table of a document, or what is wrong with the text. -/
  fromStr : String → Except String Fields
  /-- What is said of a table that is no specification. -/
  refusal : Fields → String

def parseSpec (library : TomlLibrary) (input : String) : Except String AssertSpec := do
  let table ← library.fromStr input
  match decodeSpec table with
  | none => throw (library.refusal table)
  | some spec =>
    if spec.assertions.isEmpty then throw "spec contains no [[assert]] entries"
    match spec.assertions.findSome? entryError with
    | some error => throw error
    | none => return spec

/-! ## What a reader promises -/

def tomlValue : Toml.Scalar → TomlValue
  | .text s => .string s
  | .integer n => .integer n

/-- A reader gives back a table on plain lines. Where a document goes on with a string, it reads what the grammar says
that the string is. -/
structure TomlLibrary.FollowsToml (library : TomlLibrary) : Prop where
  plain : ∀ (name : String) (entries : List (String × Toml.Scalar)), Toml.Printable name entries →
    library.fromStr (Toml.printTable name entries) =
      .ok [(name, .array [.table (entries.map fun entry => (entry.1, tomlValue entry.2))])]
  strings : ∀ (name : String) (entries : List (String × Toml.Scalar)) (key rest : String) (document : Fields),
    Toml.Printable name entries → Toml.IsBareKey key → key ∉ entries.map Prod.fst →
      library.fromStr (Toml.printTable name entries ++ "\n" ++ key ++ " = \"" ++ rest) = .ok document →
        ∃ fields tables s, document.lookup name = some (.array (.table fields :: tables)) ∧
          fields.lookup key = some (.string s) ∧ Toml.StringAt ('"' :: rest.toList) s.toList

/-- A reader that knows tables on plain lines only. -/
def plainToml : TomlLibrary where
  fromStr text :=
    match Toml.readTable text with
    | some (name, entries) => .ok [(name, .array [.table (entries.map fun entry => (entry.1, tomlValue entry.2))])]
    | none => .error "no table on plain lines"
  refusal _ := "no specification"

theorem lookup_pasted {entries more : List (String × Toml.Scalar)} {key s : String}
    (fresh : key ∉ entries.map Prod.fst) :
    ((entries ++ (key, .text s) :: more).map fun entry => (entry.1, tomlValue entry.2)).lookup key =
      some (.string s) := by
  induction entries with
  | nil => simp [tomlValue]
  | cons entry rest ih =>
    simp only [List.map_cons, List.mem_cons, not_or] at fresh
    rw [List.cons_append, List.map_cons, lookup_cons_other fresh.1, ih fresh.2]

theorem plainToml_followsToml : plainToml.FollowsToml where
  plain name entries printable := by
    simp only [plainToml, Toml.readTable_printTable printable]
  strings name entries key rest document printable bare fresh read := by
    unfold plainToml at read
    dsimp only at read
    split at read
    case h_1 header all found =>
      obtain ⟨rfl, s, more, after, rfl, string⟩ := Toml.readTable_pasted printable bare found
      obtain rfl := Except.ok.inj read
      exact ⟨_, [], s, lookup_cons_same _ _ _, lookup_pasted fresh, .basic string⟩
    case h_2 => cases read

/-! ## What is read from a field -/

/-- The tool that a rule is about. -/
def SpecRule.tool : SpecRule → Option String
  | .rule (.noErrors tool) => tool
  | .rule (.toolCalled tool _ _) => some tool
  | .rule (.responseMatches tool _ _ _ _) => tool
  | .latency tool _ _ _ _ => tool
  | _ => none

theorem optional_text_eq_some_some {key text : String} {fields : Fields}
    (read : optional tomlText key fields = some (some text)) : fields.lookup key = some (.string text) := by
  unfold optional at read
  split at read
  case h_1 value found =>
    obtain ⟨other, told, same⟩ := Option.map_eq_some_iff.1 read
    obtain rfl := Option.some.inj same
    cases value <;> simp_all [tomlText]
  case h_2 => cases read

theorem required_text_eq_some {key text : String} {fields : Fields} (read : required tomlText key fields = some text) :
    fields.lookup key = some (.string text) := by
  obtain ⟨value, found, told⟩ := Option.bind_eq_some_iff.1 read
  cases value <;> simp_all [tomlText]

/-- Whatever its kind, a rule has its tool from the field of that name. -/
theorem lookup_tool_of_decodeRule {fields : Fields} {rule : SpecRule} {tool : String}
    (decoded : decodeRule fields = some rule) (about : rule.tool = some tool) :
    fields.lookup "tool" = some (.string tool) := by
  obtain ⟨kind, -, decoded⟩ := Option.bind_eq_some_iff.1 decoded
  obtain ⟨variant, selected, decoded⟩ := Option.bind_eq_some_iff.1 decoded
  split_ifs at decoded
  have member := mem_of_lookup selected
  simp only [variants, List.map_cons, List.map_nil, List.mem_cons, List.not_mem_nil, or_false, Prod.mk.injEq] at member
  -- The kinds that know a tool read it first.
  rcases member with ⟨-, rfl⟩ | ⟨-, rfl⟩ | ⟨-, rfl⟩ | ⟨-, rfl⟩ | ⟨-, rfl⟩ | ⟨-, rfl⟩ | ⟨-, rfl⟩ | ⟨-, rfl⟩
  · obtain ⟨read, told, decoded⟩ := Option.bind_eq_some_iff.1 decoded
    cases decoded
    exact optional_text_eq_some_some (told.trans (congrArg some about))
  · obtain ⟨read, told, decoded⟩ := Option.bind_eq_some_iff.1 decoded
    obtain ⟨_, -, decoded⟩ := Option.bind_eq_some_iff.1 decoded
    obtain ⟨_, -, decoded⟩ := Option.bind_eq_some_iff.1 decoded
    cases decoded
    exact required_text_eq_some (told.trans about)
  · obtain ⟨_, -, decoded⟩ := Option.bind_eq_some_iff.1 decoded
    obtain ⟨_, -, decoded⟩ := Option.bind_eq_some_iff.1 decoded
    obtain ⟨_, -, decoded⟩ := Option.bind_eq_some_iff.1 decoded
    cases decoded
    cases about
  · obtain ⟨_, -, decoded⟩ := Option.bind_eq_some_iff.1 decoded
    obtain ⟨_, -, decoded⟩ := Option.bind_eq_some_iff.1 decoded
    cases decoded
    cases about
  · obtain ⟨read, told, decoded⟩ := Option.bind_eq_some_iff.1 decoded
    obtain ⟨_, -, decoded⟩ := Option.bind_eq_some_iff.1 decoded
    obtain ⟨_, -, decoded⟩ := Option.bind_eq_some_iff.1 decoded
    obtain ⟨_, -, decoded⟩ := Option.bind_eq_some_iff.1 decoded
    obtain ⟨_, -, decoded⟩ := Option.bind_eq_some_iff.1 decoded
    cases decoded
    exact optional_text_eq_some_some (told.trans (congrArg some about))
  · obtain ⟨read, told, decoded⟩ := Option.bind_eq_some_iff.1 decoded
    obtain ⟨_, -, decoded⟩ := Option.bind_eq_some_iff.1 decoded
    obtain ⟨_, -, decoded⟩ := Option.bind_eq_some_iff.1 decoded
    obtain ⟨_, -, decoded⟩ := Option.bind_eq_some_iff.1 decoded
    cases decoded
    exact optional_text_eq_some_some (told.trans (congrArg some about))
  · obtain ⟨_, -, decoded⟩ := Option.bind_eq_some_iff.1 decoded
    cases decoded
    cases about
  · obtain ⟨_, -, decoded⟩ := Option.bind_eq_some_iff.1 decoded
    obtain ⟨_, -, decoded⟩ := Option.bind_eq_some_iff.1 decoded
    obtain ⟨_, -, decoded⟩ := Option.bind_eq_some_iff.1 decoded
    obtain ⟨_, -, decoded⟩ := Option.bind_eq_some_iff.1 decoded
    obtain ⟨_, -, decoded⟩ := Option.bind_eq_some_iff.1 decoded
    obtain ⟨_, -, decoded⟩ := Option.bind_eq_some_iff.1 decoded
    cases decoded
    cases about

/-- An accepted file was decoded from the table of its text, without an error in an entry. -/
theorem parseSpec_eq_ok_iff {library : TomlLibrary} {input : String} {spec : AssertSpec} :
    parseSpec library input = .ok spec ↔ ∃ table, library.fromStr input = .ok table ∧ decodeSpec table = some spec ∧
      spec.assertions ≠ [] ∧ ∀ entry ∈ spec.assertions, entryError entry = none := by
  rw [parseSpec, bind_eq_ok_iff]
  refine exists_congr fun table => and_congr_right fun _ => ?_
  cases decoded : decodeSpec table with
  | none => simp
  | some other =>
    by_cases empty : other.assertions = []
    · simp only [empty, List.isEmpty_nil, if_true, Option.some.injEq]
      refine iff_of_false (fun accepted => by cases accepted) ?_
      rintro ⟨rfl, filled, -⟩
      exact filled empty
    · simp only [List.isEmpty_eq_false_iff.2 empty, Bool.false_eq_true, if_false, Option.some.injEq]
      cases wrong : other.assertions.findSome? entryError with
      | none =>
        rw [List.findSome?_eq_none_iff] at wrong
        constructor
        · intro accepted
          cases accepted
          exact ⟨rfl, empty, wrong⟩
        · rintro ⟨rfl, -, -⟩
          rfl
      | some error =>
        refine iff_of_false (fun accepted => by cases accepted) ?_
        rintro ⟨rfl, -, sound⟩
        rw [List.findSome?_eq_none_iff.2 sound] at wrong
        cases wrong

/-- The first table under the name of the entries is the first entry. -/
theorem decodeEntry_of_decodeSpec {table : Fields} {spec : AssertSpec} {fields : Fields}
    {rest : List TomlValue} (decoded : decodeSpec table = some spec)
    (found : table.lookup "assert" = some (.array (.table fields :: rest))) :
    ∃ entry entries, spec.assertions = entry :: entries ∧ decodeEntry (.table fields) = some entry := by
  unfold decodeSpec at decoded
  rw [found] at decoded
  split_ifs at decoded
  split at decoded
  case h_1 absent _ => cases absent
  case h_3 absent _ => cases absent
  case h_4 => cases decoded
  case h_2 same _ =>
    cases same
    obtain ⟨entries, made, rfl⟩ := Option.map_eq_some_iff.1 decoded
    rw [List.mapM_cons] at made
    obtain ⟨entry, first, made⟩ := Option.bind_eq_some_iff.1 made
    obtain ⟨others, -, made⟩ := Option.bind_eq_some_iff.1 made
    cases made
    exact ⟨entry, others, rfl, first⟩

end McpTracer.Model
