import McpTracer.Foundation.Grouping
import McpTracer.Model.Diff

/-! What recorded sessions suggest for the configuration.

Every suggestion is about one tool and is mined from what the sessions recorded of it: a latency bound from
its answered calls, pointers to ignore from its results, and a standing assertion from its errors. A latency in
milliseconds and a confidence are exact.
-/

set_option autoImplicit false

namespace McpTracer.Model
open McpTracer.Foundation McpTracer.Json McpTracer.Protocol McpTracer.Storage

/-- One session's identity and raw messages. -/
structure SessionHistory where
  sessionId : String
  messages : List StoredMessage

inductive SuggestionKind where
  | latencyThreshold
  | ignorePointer
  | assertionTemplate
  deriving DecidableEq, Repr

/-- A proposed change, never applied automatically. -/
structure Suggestion where
  kind : SuggestionKind
  description : String
  command : String
  confidence : ℚ
  provenance : List String
  deriving DecidableEq

/-- The suggestions of a category with the tools they are about, in the order of the tools. -/
def perTool {A : Type} (suggest : String → List A → Option Suggestion) (samples : List (String × A)) :
    List (String × Suggestion) :=
  (Grouping.collect samples).filterMap fun group =>
    (suggest group.1 group.2).map fun suggestion => (group.1, suggestion)

theorem mem_perTool {A : Type} {suggest : String → List A → Option Suggestion} {samples : List (String × A)}
    {tool : String} {suggestion : Suggestion} : (tool, suggestion) ∈ perTool suggest samples ↔
      Grouping.valuesOf tool samples ≠ [] ∧ suggest tool (Grouping.valuesOf tool samples) = some suggestion := by
  simp only [perTool, List.mem_filterMap, Option.map_eq_some_iff, Prod.exists, Prod.mk.injEq]
  constructor
  · rintro ⟨other, values, member, found, made, rfl, rfl⟩
    obtain ⟨rfl, filled⟩ := Grouping.mem_collect.1 member
    exact ⟨filled, made⟩
  · rintro ⟨filled, made⟩
    exact ⟨tool, _, Grouping.mem_collect.2 ⟨rfl, filled⟩, suggestion, made, rfl, rfl⟩

/-! ## Latency bounds -/

/-- The tenths nearest to a value, the even ones when two are as near. -/
def nearestTenths (value : ℚ) : Nat :=
  let below := ⌊value * 10⌋.toNat
  let rest := value * 10 - below
  if rest < 1 / 2 ∨ (rest = 1 / 2 ∧ below % 2 = 0) then below else below + 1

/-- A value with one decimal. -/
def oneDecimal (value : ℚ) : String :=
  let tenths := nearestTenths |value|
  (if value < 0 then "-" else "") ++ toString (tenths / 10) ++ "." ++ toString (tenths % 10)

/-- A quarter over the observed latency, rounded up to ten milliseconds. -/
def suggestedMs (p95Ns : Int) : Int := ⌈(p95Ns : ℚ) / 1000000 * (5 / 4) / 10⌉ * 10

def latencyCommand (tool : String) (boundMs : Int) : String :=
  "[[assert]]\nkind = \"latency\"\ntool = \"" ++ tool ++ "\"\np95_under_ms = " ++ toString boundMs

def latencySuggestion (tool : String) (samples : List (Int × String)) : Option Suggestion :=
  if samples.length < 3 then none
  else
    let entries := samples.insertionSort fun a b => a.1 ≤ b.1
    let latencies := entries.map Prod.fst
    (percentile latencies 19 20).map fun (p95Ns : Int) =>
      { kind := .latencyThreshold
        description := "tool `" ++ tool ++ "`: observed p95 " ++ oneDecimal ((p95Ns : ℚ) / 1000000) ++ "ms over " ++
          toString latencies.length ++ " call(s); suggest a latency bound with headroom"
        command := latencyCommand tool (suggestedMs p95Ns)
        confidence := min ((latencies.length : ℚ) / 10) 1
        provenance := SortedSet.ofList (entries.map Prod.snd) }

section Samples
variable (codec : Codec) (histories : List SessionHistory)

/-- The latencies of the calls that succeeded, with their tools and sessions. -/
def latencySamples : List (String × (Int × String)) :=
  histories.flatMap fun history => (correlate codec history.messages).exchanges.filterMap fun exchange => do
    let tool ← exchange.toolName
    let latencyNs ← exchange.latencyNs
    if exchange.status = .ok then some (tool, latencyNs, history.sessionId) else none

def latencyThresholdSuggestions : List Suggestion :=
  (perTool latencySuggestion (latencySamples codec histories)).map Prod.snd

/-! ## Pointers to ignore -/

/-- The results of the calls that succeeded, with their tools and sessions. -/
def resultSamples : List (String × (Value × String)) :=
  histories.flatMap fun history =>
    let payloads := payloadsBySeq codec history.messages
    (correlate codec history.messages).exchanges.filterMap fun exchange => do
      if exchange.origin ≠ .clientToServer ∨ exchange.status ≠ .ok then none
      else
        let tool ← exchange.toolName
        let result ← (exchange.responseSeq.bind payloads).bind (Value.get "result")
        some (tool, result, history.sessionId)

/-- Pointers at which a later sample differs from the first. -/
def varyingPointers (baseline : Value) (others : List (Value × String)) : List String :=
  SortedSet.ofList (others.flatMap fun entry => (compareValues "" baseline entry.1).map PointerDiff.pointer)

def ignoreInvocation : String := "mcptracer diff <a> <b> --ignore "

def ignoreCommand (pointers : List String) : String := ignoreInvocation ++ ",".intercalate pointers

def ignoreSuggestion (tool : String) : List (Value × String) → Option Suggestion
  | (baseline, _) :: others =>
    let varying := varyingPointers baseline others
    let differing := others.filter fun entry => !(compareValues "" baseline entry.1).isEmpty
    let sessions := SortedSet.ofList (differing.map Prod.snd)
    let count := others.length + 1
    if count < 2 ∨ varying = [] then none
    else some
      { kind := .ignorePointer
        description := "tool `" ++ tool ++ "`: response varies at " ++ toString varying.length ++
          " pointer(s) across " ++ toString count ++ " call(s) with otherwise stable structure"
        command := ignoreCommand varying
        confidence := min ((sessions.length : ℚ) / count) 1
        provenance := sessions }
  | [] => none

def ignorePointerSuggestions : List Suggestion :=
  (perTool ignoreSuggestion (resultSamples codec histories)).map Prod.snd

/-! ## Standing assertions -/

/-- The sessions in which a tool failed. -/
def errorSamples : List (String × String) :=
  histories.flatMap fun history => (correlate codec history.messages).exchanges.filterMap fun exchange => do
    let tool ← exchange.toolName
    if exchange.status = .error then some (tool, history.sessionId) else none

def templateCommand (tool : String) : String := "[[assert]]\nkind = \"no_errors\"\ntool = \"" ++ tool ++ "\""

/-- A failure in two sessions is recurring. -/
def templateSuggestion (recorded : Nat) (tool : String) (failures : List String) : Option Suggestion :=
  let sessions := SortedSet.ofList failures
  if sessions.length < 2 then none
  else some
    { kind := .assertionTemplate
      description := "tool `" ++ tool ++ "` errored in " ++ toString sessions.length ++
        " distinct session(s); recurring failure, not a one-off"
      command := templateCommand tool
      confidence := min ((sessions.length : ℚ) / max recorded 1) 1
      provenance := sessions }

def assertionTemplateSuggestions : List Suggestion :=
  (perTool (templateSuggestion histories.length) (errorSamples codec histories)).map Prod.snd

end Samples

end McpTracer.Model
