import McpTracer.Model.AssertSpecs
import McpTracer.Model.Suggestions
import McpTracer.Storage.Identity

/-! Whether suggested assertions can be pasted into a specification.

A tool's name is pasted between quotation marks. It is read back when every character of it stands for itself,
and never otherwise. A latency bound is a quarter above what was observed, which is no bound for latencies of
zero and below.
-/

set_option autoImplicit false

namespace McpTracer.Model
open McpTracer.Foundation McpTracer.Json McpTracer.Protocol McpTracer.Storage

/-- The name can stand between quotation marks. -/
def PlainName (tool : String) : Prop := ∀ c ∈ tool.toList, Toml.isPlainChar c = true

/-! ## The suggested bound -/

theorem suggestedMs_eq (p95Ns : Int) : suggestedMs p95Ns = ⌈(p95Ns : ℚ) / 8000000⌉ * 10 := by
  rw [suggestedMs]
  congr 2
  ring

theorem suggestedMs_nonneg_iff (p95Ns : Int) : 0 ≤ suggestedMs p95Ns ↔ -8000000 < p95Ns := by
  have scaled : (-1 : ℚ) < (p95Ns : ℚ) / 8000000 ↔ (-8000000 : ℚ) < p95Ns := by
    rw [lt_div_iff₀ (by norm_num)]
    norm_num
  have above : -1 < ⌈(p95Ns : ℚ) / 8000000⌉ ↔ -8000000 < p95Ns := by
    rw [Int.lt_ceil, Int.cast_neg, Int.cast_one, scaled]
    exact_mod_cast Iff.rfl
  rw [suggestedMs_eq, ← above]
  omega

/-- From a bound that is accepted the observed latency keeps its distance, but for a latency of zero. -/
theorem p95_lt_suggestedMs_iff {p95Ns : Int} (accepted : -8000000 < p95Ns) :
    (p95Ns : ℚ) / 1000000 < suggestedMs p95Ns ↔ p95Ns ≠ 0 := by
  constructor
  · rintro below rfl
    simp [suggestedMs] at below
  · intro nonzero
    rcases lt_or_gt_of_ne nonzero with negative | positive
    · have below : (p95Ns : ℚ) < 0 := by exact_mod_cast negative
      have bound : (0 : ℚ) ≤ suggestedMs p95Ns := by exact_mod_cast (suggestedMs_nonneg_iff p95Ns).2 accepted
      exact lt_of_lt_of_le (div_neg_of_neg_of_pos below (by norm_num)) bound
    · have above : (0 : ℚ) < p95Ns := by exact_mod_cast positive
      have rounded := Int.le_ceil ((p95Ns : ℚ) / 8000000)
      rw [suggestedMs_eq, Int.cast_mul]
      push_cast
      linarith

instance (n : Int) : Decidable (IsI64 n) := inferInstanceAs (Decidable (_ ∧ _))

theorem suggestedMs_isI64 {p95Ns : Int} (typed : IsI64 p95Ns) : IsI64 (suggestedMs p95Ns) := by
  obtain ⟨low, high⟩ := typed
  have above : p95Ns ≤ ⌈(p95Ns : ℚ) / 8000000⌉ * 8000000 := by
    have rounded := Int.le_ceil ((p95Ns : ℚ) / 8000000)
    rw [div_le_iff₀ (by norm_num)] at rounded
    exact_mod_cast rounded
  have below : ⌈(p95Ns : ℚ) / 8000000⌉ * 8000000 < p95Ns + 8000000 := by
    have rounded := Int.ceil_lt_add_one ((p95Ns : ℚ) / 8000000)
    have scaled : (⌈(p95Ns : ℚ) / 8000000⌉ : ℚ) * 8000000 < p95Ns + 8000000 := by linarith
    exact_mod_cast scaled
  rw [suggestedMs_eq]
  constructor <;> omega

/-! ## The suggested text -/

def kindEntries (kind : String) : List (String × Toml.Scalar) := [("kind", .text kind)]

def latencyEntries (tool : String) (boundMs : Int) : List (String × Toml.Scalar) :=
  [("kind", .text "latency"), ("tool", .text tool), ("p95_under_ms", .integer boundMs)]

def templateEntries (tool : String) : List (String × Toml.Scalar) := [("kind", .text "no_errors"), ("tool", .text tool)]

theorem latencyCommand_pasted (tool : String) (boundMs : Int) : latencyCommand tool boundMs =
    Toml.printTable "assert" (kindEntries "latency") ++ "\n" ++ "tool" ++ " = \"" ++
      (tool ++ "\"" ++ ("\np95_under_ms = " ++ toString boundMs)) := by
  have head : "[[assert]]\nkind = \"latency\"\ntool = \"" =
      Toml.printTable "assert" (kindEntries "latency") ++ "\n" ++ "tool" ++ " = \"" := by rfl
  have middle : "\"\np95_under_ms = " = "\"" ++ "\np95_under_ms = " := by rfl
  unfold latencyCommand
  simp only [head, middle, String.append_assoc]

theorem templateCommand_pasted (tool : String) : templateCommand tool =
    Toml.printTable "assert" (kindEntries "no_errors") ++ "\n" ++ "tool" ++ " = \"" ++ (tool ++ "\"" ++ "") := by
  have head : "[[assert]]\nkind = \"no_errors\"\ntool = \"" =
      Toml.printTable "assert" (kindEntries "no_errors") ++ "\n" ++ "tool" ++ " = \"" := by rfl
  unfold templateCommand
  simp only [head, String.append_empty, String.append_assoc]

theorem templateCommand_eq (tool : String) :
    templateCommand tool = Toml.printTable "assert" (templateEntries tool) := by
  have line : " = \"" = " = " ++ "\"" := by rfl
  have table : Toml.printTable "assert" (templateEntries tool) = Toml.printTable "assert" (kindEntries "no_errors") ++
      "\n" ++ ("tool" ++ " = " ++ ("\"" ++ tool ++ "\"")) := rfl
  rw [templateCommand_pasted, table, line, String.append_empty]
  simp only [String.append_assoc]

theorem latencyCommand_eq (tool : String) (boundMs : Int) :
    latencyCommand tool boundMs = Toml.printTable "assert" (latencyEntries tool boundMs) := by
  have line : " = \"" = " = " ++ "\"" := by rfl
  have last : "\np95_under_ms = " = "\n" ++ "p95_under_ms" ++ " = " := by rfl
  have table : Toml.printTable "assert" (latencyEntries tool boundMs) =
      Toml.printTable "assert" (kindEntries "latency") ++ "\n" ++ ("tool" ++ " = " ++ ("\"" ++ tool ++ "\"")) ++
        "\n" ++ ("p95_under_ms" ++ " = " ++ toString boundMs) := rfl
  rw [latencyCommand_pasted, table, line, last]
  simp only [String.append_assoc]

theorem plain_literal {text : String} (plain : text.toList.all Toml.isPlainChar = true) : PlainName text :=
  List.all_eq_true.1 plain

theorem bareKey_literal {key : String} (filled : key ≠ "") (bare : key.toList.all Toml.isBareKeyChar = true) :
    Toml.IsBareKey key := ⟨filled, List.all_eq_true.1 bare⟩

theorem printable_kind {kind : String} (plain : PlainName kind) : Toml.Printable "assert" (kindEntries kind) where
  name := bareKey_literal (by decide) (by decide)
  keys := by simpa [kindEntries] using bareKey_literal (by decide) (by decide)
  values := by simpa [kindEntries, Toml.Scalar.Valid, PlainName] using plain
  distinct := by simp [kindEntries]

section
variable {library : TomlLibrary} (follows : library.FollowsToml)

include follows in
/-- A file that was made by pasting a name, and that has the name in its only entry, has a plain name. -/
theorem plain_of_parsed {kind tool after : String} (plain : PlainName kind) (quiet : '"' ∉ after.toList)
    {entry : SpecEntry} (parsed : parseSpec library (Toml.printTable "assert" (kindEntries kind) ++ "\n" ++ "tool" ++
      " = \"" ++ (tool ++ "\"" ++ after)) = .ok ⟨[entry]⟩) (about : entry.rule.tool = some tool) : PlainName tool := by
  obtain ⟨table, read, decoded, -, -⟩ := parseSpec_eq_ok_iff.1 parsed
  obtain ⟨fields, tables, s, found, told, string⟩ := follows.strings "assert" (kindEntries kind) "tool"
    (tool ++ "\"" ++ after) table (printable_kind plain) (bareKey_literal (by decide) (by decide))
    (by simp [kindEntries]) read
  obtain ⟨first, others, listed, made⟩ := decodeEntry_of_decodeSpec decoded found
  obtain ⟨rfl, -⟩ := List.cons.inj listed
  obtain ⟨description, -, made⟩ := Option.bind_eq_some_iff.1 made
  obtain ⟨rule, ruled, made⟩ := Option.bind_eq_some_iff.1 made
  cases made
  have same := lookup_tool_of_decodeRule ruled about
  rw [told] at same
  cases same
  have read : Toml.StringAt ('"' :: (tool.toList ++ '"' :: after.toList)) tool.toList := by simpa using string
  exact Toml.plain_of_stringAt quiet read

theorem decodeSpec_latency (tool : String) (boundMs : Int) :
    decodeSpec [("assert", .array [.table
        ((latencyEntries tool boundMs).map fun entry => (entry.1, tomlValue entry.2))])] =
      some ⟨[⟨none, .latency (some tool) none none (some (some (boundMs : ℚ))) none⟩]⟩ := rfl

theorem decodeSpec_template (tool : String) :
    decodeSpec [("assert", .array [.table ((templateEntries tool).map fun entry => (entry.1, tomlValue entry.2))])] =
      some ⟨[⟨none, .rule (.noErrors (some tool))⟩]⟩ := rfl

theorem printable_latency {tool : String} (plain : PlainName tool) {boundMs : Int} (typed : IsI64 boundMs) :
    Toml.Printable "assert" (latencyEntries tool boundMs) where
  name := bareKey_literal (by decide) (by decide)
  keys := by
    have keys : ∀ key ∈ ["kind", "tool", "p95_under_ms"], Toml.IsBareKey key := by
      simp only [List.forall_mem_cons]
      exact ⟨bareKey_literal (by decide) (by decide), bareKey_literal (by decide) (by decide),
        bareKey_literal (by decide) (by decide), fun key member => by cases member⟩
    exact fun entry member => keys entry.1 (List.mem_map_of_mem (f := Prod.fst) member)
  values := by
    simp only [latencyEntries, List.forall_mem_cons]
    exact ⟨plain_literal (by decide), plain, typed, fun entry member => by cases member⟩
  distinct := by simp [latencyEntries]

theorem printable_template {tool : String} (plain : PlainName tool) :
    Toml.Printable "assert" (templateEntries tool) where
  name := bareKey_literal (by decide) (by decide)
  keys := by
    have keys : ∀ key ∈ ["kind", "tool"], Toml.IsBareKey key := by
      simp only [List.forall_mem_cons]
      exact ⟨bareKey_literal (by decide) (by decide), bareKey_literal (by decide) (by decide),
        fun key member => by cases member⟩
    exact fun entry member => keys entry.1 (List.mem_map_of_mem (f := Prod.fst) member)
  values := by
    simp only [templateEntries, List.forall_mem_cons]
    exact ⟨plain_literal (by decide), plain, fun entry member => by cases member⟩
  distinct := by simp [templateEntries]

/-- The entry of a latency bound. -/
def latencyEntry (tool : String) (bound : ℚ) : SpecEntry where
  description := none
  rule := .latency (some tool) none none (some (some bound)) none

def templateEntry (tool : String) : SpecEntry where
  description := none
  rule := .rule (.noErrors (some tool))

theorem boundError_eq_none_iff (name : String) (bound : ℚ) :
    boundError name (some (some bound)) = none ↔ 0 ≤ bound := by
  constructor
  · intro accepted
    by_contra negative
    have refused : boundError name (some (some bound)) = some _ := if_neg (by simpa using negative)
    rw [refused] at accepted
    cases accepted
  · exact fun nonneg => if_pos (by simpa using nonneg)

theorem entryError_latency_iff (tool : String) (bound : ℚ) :
    entryError (latencyEntry tool bound) = none ↔ 0 ≤ bound := by
  have checks : entryError (latencyEntry tool bound) = [("p50_under_ms", none), ("p95_under_ms", some (some bound)),
      ("max_under_ms", none)].findSome? fun check => boundError check.1 check.2 := rfl
  rw [checks, List.findSome?_eq_none_iff, List.forall_mem_cons, List.forall_mem_cons, List.forall_mem_singleton,
    boundError_eq_none_iff]
  exact ⟨fun every => every.2.1, fun nonneg => ⟨rfl, nonneg, rfl⟩⟩

include follows in
theorem parseSpec_latency_iff {tool : String} {boundMs : Int} (typed : IsI64 boundMs) (bound : ℚ) :
    parseSpec library (latencyCommand tool boundMs) = .ok ⟨[latencyEntry tool bound]⟩ ↔
      PlainName tool ∧ 0 ≤ boundMs ∧ bound = boundMs := by
  constructor
  · intro parsed
    have quiet : '"' ∉ ("\np95_under_ms = " ++ toString boundMs).toList := by
      rw [String.toList_append, List.mem_append, not_or]
      refine ⟨by decide, fun member => ?_⟩
      rcases Toml.sign_or_digit_of_mem member with sign | digit
      · exact absurd sign (by decide)
      · exact absurd digit (by decide)
    have plain : PlainName tool := by
      rw [latencyCommand_pasted] at parsed
      exact plain_of_parsed follows (plain_literal (by decide)) quiet parsed rfl
    obtain ⟨table, read, decoded, -, sound⟩ := parseSpec_eq_ok_iff.1 parsed
    rw [latencyCommand_eq, follows.plain _ _ (printable_latency plain typed)] at read
    obtain rfl := Except.ok.inj read
    rw [decodeSpec_latency] at decoded
    obtain rfl : (boundMs : ℚ) = bound := by simpa [latencyEntry] using decoded
    have checked := (entryError_latency_iff tool boundMs).1 (sound _ List.mem_cons_self)
    exact ⟨plain, by exact_mod_cast checked, rfl⟩
  · rintro ⟨plain, nonneg, rfl⟩
    refine parseSpec_eq_ok_iff.2 ⟨_, ?_, decodeSpec_latency tool boundMs, List.cons_ne_nil _ _, ?_⟩
    · rw [latencyCommand_eq, follows.plain _ _ (printable_latency plain typed)]
    · rw [List.forall_mem_singleton]
      exact (entryError_latency_iff tool boundMs).2 (by exact_mod_cast nonneg)

include follows in
theorem parseSpec_template_iff {tool : String} :
    parseSpec library (templateCommand tool) = .ok ⟨[templateEntry tool]⟩ ↔ PlainName tool := by
  constructor
  · intro parsed
    rw [templateCommand_pasted] at parsed
    exact plain_of_parsed follows (plain_literal (by decide)) (by simp) parsed rfl
  · intro plain
    refine parseSpec_eq_ok_iff.2 ⟨_, ?_, decodeSpec_template tool, List.cons_ne_nil _ _, ?_⟩
    · rw [templateCommand_eq, follows.plain _ _ (printable_template plain)]
    · rw [List.forall_mem_singleton]
      rfl

end

/-! ## Suggestions that fit -/

/-- The p95 of a tool's answered calls, pooled over the sessions. -/
def pooledP95 (codec : Codec) (histories : List SessionHistory) (tool : String) : Option Int :=
  percentile (((Grouping.valuesOf tool (latencySamples codec histories)).map Prod.fst).insertionSort (· ≤ ·)) 19 20

/-- The command is a specification of one latency bound for the tool, and the observed p95 is strictly below it. -/
def LatencyFits (library : TomlLibrary) (codec : Codec) (histories : List SessionHistory) (tool : String)
    (suggestion : Suggestion) : Prop :=
  ∃ bound p95Ns, parseSpec library suggestion.command = .ok ⟨[latencyEntry tool bound]⟩ ∧
    pooledP95 codec histories tool = some p95Ns ∧ (p95Ns : ℚ) / 1000000 < bound

/-- The command is a specification that the tool has no errors. -/
def TemplateFits (library : TomlLibrary) (tool : String) (suggestion : Suggestion) : Prop :=
  parseSpec library suggestion.command = .ok ⟨[templateEntry tool]⟩

theorem latencySuggestion_eq_some {tool : String} {samples : List (Int × String)} {suggestion : Suggestion}
    (made : latencySuggestion tool samples = some suggestion) : ∃ p95Ns,
      percentile ((samples.map Prod.fst).insertionSort (· ≤ ·)) 19 20 = some p95Ns ∧
        suggestion.command = latencyCommand tool (suggestedMs p95Ns) := by
  have sorted : (samples.insertionSort fun a b => a.1 ≤ b.1).map Prod.fst =
      (samples.map Prod.fst).insertionSort (· ≤ ·) :=
    List.map_insertionSort _ _ _ _ fun _ _ _ _ => Iff.rfl
  rw [latencySuggestion] at made
  split_ifs at made
  obtain ⟨p95Ns, found, rfl⟩ := Option.map_eq_some_iff.1 made
  exact ⟨p95Ns, sorted ▸ found, rfl⟩

theorem templateSuggestion_command {recorded : Nat} {tool : String} {failures : List String} {suggestion : Suggestion}
    (made : templateSuggestion recorded tool failures = some suggestion) :
    suggestion.command = templateCommand tool := by
  rw [templateSuggestion] at made
  split_ifs at made
  obtain rfl := Option.some.inj made
  rfl

theorem mem_of_percentile {values : List Int} {numerator denominator : Nat} {value : Int}
    (found : percentile (values.insertionSort (· ≤ ·)) numerator denominator = some value) : value ∈ values :=
  (List.mem_insertionSort _).1 (List.mem_of_getElem? found)

/-- Suggested assertions are read back and fit exactly when the name can be pasted and, for a latency bound, the
observed p95 is not zero and less than eight milliseconds below it. -/
theorem suggested_assertions_fit_iff {library : TomlLibrary} (follows : library.FollowsToml) (codec : Codec)
    (histories : List SessionHistory) (typed : ∀ sample ∈ latencySamples codec histories, IsI64 sample.2.1) :
    (∀ tool suggestion, (tool, suggestion) ∈ perTool latencySuggestion (latencySamples codec histories) →
      (LatencyFits library codec histories tool suggestion ↔ PlainName tool ∧
        ∀ p95Ns, pooledP95 codec histories tool = some p95Ns → -8000000 < p95Ns ∧ p95Ns ≠ 0)) ∧
    ∀ tool suggestion,
      (tool, suggestion) ∈ perTool (templateSuggestion histories.length) (errorSamples codec histories) →
        (TemplateFits library tool suggestion ↔ PlainName tool) := by
  refine ⟨fun tool suggestion emitted => ?_, fun tool suggestion emitted => ?_⟩
  · obtain ⟨p95Ns, pooled, command⟩ := latencySuggestion_eq_some (mem_perTool.1 emitted).2
    have inside : IsI64 p95Ns := by
      obtain ⟨sample, member, rfl⟩ := List.mem_map.1 (mem_of_percentile pooled)
      exact typed _ (Grouping.mem_valuesOf.1 member)
    have only : pooledP95 codec histories tool = some p95Ns := pooled
    simp only [LatencyFits, command, parseSpec_latency_iff follows (suggestedMs_isI64 inside), suggestedMs_nonneg_iff,
      only, Option.some.injEq]
    constructor
    · rintro ⟨bound, _, ⟨plain, accepted, rfl⟩, rfl, below⟩
      refine ⟨plain, ?_⟩
      rintro _ rfl
      exact ⟨accepted, (p95_lt_suggestedMs_iff accepted).1 below⟩
    · rintro ⟨plain, every⟩
      obtain ⟨accepted, nonzero⟩ := every p95Ns rfl
      exact ⟨_, p95Ns, ⟨plain, accepted, rfl⟩, rfl, (p95_lt_suggestedMs_iff accepted).2 nonzero⟩
  · rw [TemplateFits, templateSuggestion_command (mem_perTool.1 emitted).2]
    exact parseSpec_template_iff follows

/-- A call of a tool that takes so long. -/
def timedCall (tool : String) (latencyNs : Int) : List StoredMessage :=
  [McpMessage.mk 0 0 .clientToServer (.object [("id", .number (.posInt 1)), ("method", .string "tools/call"),
      ("params", .object [("name", .string tool)])]) 0,
    McpMessage.mk 1 latencyNs .serverToClient (.object [("id", .number (.posInt 1)), ("result", .object [])]) 0].map
      (StoredMessage.ofMessage Compact.codec)

/-- Three sessions with a call each of a tool that has a quotation mark in its name. -/
def quotedHistories : List SessionHistory :=
  [⟨"1", timedCall "a\"b" 5⟩, ⟨"2", timedCall "a\"b" 5⟩, ⟨"3", timedCall "a\"b" 5⟩]

def quotedSuggestion : Suggestion where
  kind := .latencyThreshold
  description := "tool `a\"b`: observed p95 0.0ms over 3 call(s); suggest a latency bound with headroom"
  command := "[[assert]]\nkind = \"latency\"\ntool = \"a\"b\"\np95_under_ms = 10"
  confidence := 3 / 10
  provenance := ["1", "2", "3"]

theorem quotedSuggestion_emitted :
    (("a\"b", quotedSuggestion) ∈ perTool latencySuggestion (latencySamples Compact.codec quotedHistories)) := by
  decide +kernel

theorem quotedHistories_isI64 : ∀ sample ∈ latencySamples Compact.codec quotedHistories, IsI64 sample.2.1 := by
  decide +kernel

theorem suggested_assertions_fit_quotedHistories :
    (∀ tool suggestion, (tool, suggestion) ∈ perTool latencySuggestion (latencySamples Compact.codec quotedHistories) →
      (LatencyFits plainToml Compact.codec quotedHistories tool suggestion ↔ PlainName tool ∧
        ∀ p95Ns, pooledP95 Compact.codec quotedHistories tool = some p95Ns → -8000000 < p95Ns ∧ p95Ns ≠ 0)) ∧
    ∀ tool suggestion, (tool, suggestion) ∈
        perTool (templateSuggestion quotedHistories.length) (errorSamples Compact.codec quotedHistories) →
      (TemplateFits plainToml tool suggestion ↔ PlainName tool) :=
  suggested_assertions_fit_iff plainToml_followsToml Compact.codec quotedHistories quotedHistories_isI64

theorem quoted_name_misfits : ¬ ∀ (library : TomlLibrary), library.FollowsToml → ∀ (codec : Codec)
    (histories : List SessionHistory), (∀ sample ∈ latencySamples codec histories, IsI64 sample.2.1) →
      (∀ tool suggestion, (tool, suggestion) ∈ perTool latencySuggestion (latencySamples codec histories) →
        LatencyFits library codec histories tool suggestion) ∧
      ∀ tool suggestion,
        (tool, suggestion) ∈ perTool (templateSuggestion histories.length) (errorSamples codec histories) →
          TemplateFits library tool suggestion := by
  intro every
  obtain ⟨bound, _, parsed, -, -⟩ := (every plainToml plainToml_followsToml Compact.codec quotedHistories
    quotedHistories_isI64).1 _ _ quotedSuggestion_emitted
  have command : quotedSuggestion.command = latencyCommand "a\"b" 10 := by decide +kernel
  rw [command] at parsed
  obtain ⟨plain, -, -⟩ := (parseSpec_latency_iff plainToml_followsToml (by decide) bound).1 parsed
  exact absurd (plain '"' (by decide)) (by decide)

/-- A p95 of zero gets a bound of zero. -/
example : suggestedMs 0 = 0 := by decide +kernel

end McpTracer.Model
