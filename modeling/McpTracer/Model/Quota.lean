import Mathlib.Data.Rat.Floor
import McpTracer.Foundation.SortedMap
import McpTracer.Foundation.TokenBucket
import McpTracer.Json.Codec
import McpTracer.Storage.StoredMessage

/-! Quota simulation of a recorded session.

Every request, notification and response is a debit of tokens at its time. The
debits are taken from a bucket in the order of their times, and the demand is
summed over windows of a second. Numbers of seconds and tokens are rational.
-/

set_option autoImplicit false

namespace McpTracer.Model
open McpTracer.Foundation McpTracer.Json McpTracer.Storage

/-! ## Debits -/

/-- Where a token count is from. -/
inductive TokenSource where
  | reported
  | estimatedFromBytes
  deriving DecidableEq, Repr

structure TokenCount where
  tokens : Nat
  source : TokenSource
  deriving DecidableEq

structure QuotaEvent where
  callId : String
  tsS : ℚ
  tokens : Nat
  tokenSource : TokenSource
  method : Option String
  deriving DecidableEq

def asU64 : Value → Option Nat
  | .number (.posInt n) => some n.toNat
  | _ => none

/-- The total of a usage object. -/
def usageTokens (v : Value) : Option Nat := ((v.get "usage").bind (Value.get "total_tokens")).bind asU64

/-- The reported usage, or one token for four bytes but ten at least. -/
def messageTokenCount (codec : Codec) (message : StoredMessage) : TokenCount :=
  match (codec.fromStr message.payload).bind fun v => (usageTokens v).or ((v.get "result").bind usageTokens) with
  | some total => ⟨total, .reported⟩
  | none => ⟨max (message.payloadBytes / 4) 10, .estimatedFromBytes⟩

def isDebit (message : StoredMessage) : Bool :=
  message.method.isSome || message.toolName.isSome || message.messageKind == "response"

def QuotaEvent.ofMessage (codec : Codec) (message : StoredMessage) : QuotaEvent where
  callId := message.rpcId.getD ("msg_" ++ toString message.seq)
  tsS := message.tsNs / 1000000000
  tokens := (messageTokenCount codec message).tokens
  tokenSource := (messageTokenCount codec message).source
  method := message.method.or message.toolName

/-- The debits in the order of their times. Those of one time keep the order of the stream. -/
def extractQuotaEvents (codec : Codec) (messages : List StoredMessage) : List QuotaEvent :=
  ((messages.filter isDebit).map (QuotaEvent.ofMessage codec)).insertionSort fun a b => a.tsS ≤ b.tsS

/-! ## Simulation -/

/-- Addition of unsigned words that stops at the greatest one. -/
def saturatingAdd (a b : Nat) : Nat := min (a + b) (2 ^ 64 - 1)

structure TokenSourceSummary where
  reportedEvents : Nat
  reportedTokens : Nat
  estimatedEvents : Nat
  estimatedTokens : Nat
  deriving DecidableEq

def TokenSourceSummary.zero : TokenSourceSummary := ⟨0, 0, 0, 0⟩

def TokenSourceSummary.record (summary : TokenSourceSummary) (source : TokenSource) (tokens : Nat) :
    TokenSourceSummary :=
  match source with
  | .reported =>
    { summary with
      reportedEvents := saturatingAdd summary.reportedEvents 1
      reportedTokens := saturatingAdd summary.reportedTokens tokens }
  | .estimatedFromBytes =>
    { summary with
      estimatedEvents := saturatingAdd summary.estimatedEvents 1
      estimatedTokens := saturatingAdd summary.estimatedTokens tokens }

/-- The loop state of the simulation. -/
structure Simulation where
  bucket : TokenBucket ℚ
  violations : Nat
  firstViolation : Option (String × ℚ)
  totalTokens : Nat
  tokenSources : TokenSourceSummary
  windowDemand : List (Int × Nat × TokenSourceSummary)

def Simulation.start (rate capacity : ℚ) : Simulation := ⟨.new rate capacity, 0, none, 0, .zero, []⟩

/-- The demand of the window that the event falls into. -/
def addDemand (t0 : ℚ) (windows : List (Int × Nat × TokenSourceSummary)) (event : QuotaEvent) :
    List (Int × Nat × TokenSourceSummary) :=
  let windowIdx := ⌊max (event.tsS - t0) 0⌋
  let window := (windows.lookup windowIdx).getD (0, .zero)
  SortedMap.insert windowIdx
    (saturatingAdd window.1 event.tokens, window.2.record event.tokenSource event.tokens) windows

def Simulation.step (t0 : ℚ) (state : Simulation) (event : QuotaEvent) : Simulation :=
  let consumed := state.bucket.tryConsume event.tokens event.tsS
  { bucket := consumed.1
    violations := if consumed.2 then state.violations else state.violations + 1
    firstViolation := if consumed.2 then state.firstViolation else state.firstViolation.or (some (event.callId, event.tsS))
    totalTokens := saturatingAdd state.totalTokens event.tokens
    tokenSources := state.tokenSources.record event.tokenSource event.tokens
    windowDemand := addDemand t0 state.windowDemand event }

structure QuotaSimulationResult where
  ok : Bool
  firstViolationCallId : Option String
  firstViolationTimeS : Option ℚ
  totalViolations : Nat
  totalCalls : Nat
  totalTokens : Nat
  tokenSources : TokenSourceSummary
  peakDemandPerSec : Nat
  peakDemandTokenSources : TokenSourceSummary
  burstFactor : ℚ
  deriving DecidableEq

/-- The last of the windows with the greatest demand. -/
def peakWindow (windows : List (Nat × TokenSourceSummary)) : Nat × TokenSourceSummary :=
  windows.foldl (fun peak window => if peak.1 ≤ window.1 then window else peak) (0, .zero)

/-- The peak over the median demand, or over the mean when the median is zero. -/
def burstFactor (demands : List Nat) (peak : Nat) : ℚ :=
  let median := ((demands.insertionSort (· ≤ ·))[demands.length / 2]?).getD 0
  let mean : ℚ := demands.sum / demands.length
  if demands = [] then 0
  else if 0 < median then peak / median
  else if 0 < mean then peak / mean
  else 0

def simulateEvents (events : List QuotaEvent) (rate capacity : ℚ) : QuotaSimulationResult :=
  let t0 := events.head?.elim 0 QuotaEvent.tsS
  let state := events.foldl (Simulation.step t0) (.start rate capacity)
  let windows := state.windowDemand.map Prod.snd
  { ok := state.violations = 0
    firstViolationCallId := state.firstViolation.map Prod.fst
    firstViolationTimeS := state.firstViolation.map Prod.snd
    totalViolations := state.violations
    totalCalls := events.length
    totalTokens := state.totalTokens
    tokenSources := state.tokenSources
    peakDemandPerSec := (peakWindow windows).1
    peakDemandTokenSources := (peakWindow windows).2
    burstFactor := burstFactor (windows.map Prod.fst) (peakWindow windows).1 }

def simulateSession (codec : Codec) (messages : List StoredMessage) (rate capacity : ℚ) : QuotaSimulationResult :=
  simulateEvents (extractQuotaEvents codec messages) rate capacity

/-! ## Events as demands on a bucket -/

/-- The time and the amount of an event. -/
def QuotaEvent.demand (event : QuotaEvent) : ℚ × ℚ := (event.tsS, event.tokens)

theorem extractQuotaEvents_sorted (codec : Codec) (messages : List StoredMessage) :
    ((extractQuotaEvents codec messages).map QuotaEvent.demand).Pairwise fun a b => a.1 ≤ b.1 := by
  have total : Std.Total fun a b : QuotaEvent => a.tsS ≤ b.tsS := ⟨fun a b => le_total _ _⟩
  have trans : IsTrans QuotaEvent fun a b => a.tsS ≤ b.tsS := ⟨fun a b c => le_trans⟩
  exact List.pairwise_map.2 (List.pairwise_insertionSort _ _)

theorem demands_nonneg (events : List QuotaEvent) : ∀ demand ∈ events.map QuotaEvent.demand, 0 ≤ demand.2 := by
  rw [List.forall_mem_map]
  exact fun event _ => Nat.cast_nonneg _

/-- The loop counts the demands its bucket refuses, and leaves the bucket as the run over the demands does. -/
theorem simulation_foldl (t0 : ℚ) (events : List QuotaEvent) (state : Simulation) :
    (events.foldl (Simulation.step t0) state).bucket = state.bucket.run (events.map QuotaEvent.demand) ∧
      (events.foldl (Simulation.step t0) state).violations =
        state.violations + (state.bucket.admissions (events.map QuotaEvent.demand)).count false := by
  induction events generalizing state with
  | nil => exact ⟨rfl, rfl⟩
  | cons event rest ih =>
      obtain ⟨bucket, violations⟩ := ih (state.step t0 event)
      rw [List.foldl_cons, bucket, violations, List.map_cons, TokenBucket.admissions, List.count_cons]
      refine ⟨rfl, ?_⟩
      simp only [Simulation.step, QuotaEvent.demand]
      rcases Bool.eq_false_or_eq_true (state.bucket.tryConsume event.tokens event.tsS).2 with admitted | refused
      · simp [admitted]
      · simp only [refused, Bool.false_eq_true, if_false, beq_self_eq_true, if_true]
        omega

theorem count_false_eq_zero_iff (bucket : TokenBucket ℚ) (events : List QuotaEvent) :
    (bucket.admissions (events.map QuotaEvent.demand)).count false = 0 ↔
      ∀ earlier event, earlier ++ [event] <+: events →
        ((bucket.run (earlier.map QuotaEvent.demand)).tryConsume event.tokens event.tsS).2 = true := by
  induction events generalizing bucket with
  | nil => simp [TokenBucket.admissions]
  | cons first rest ih =>
      rw [List.map_cons, TokenBucket.admissions, List.count_cons, Nat.add_eq_zero_iff, ih]
      constructor
      · rintro ⟨others, head⟩ earlier event listed
        cases earlier with
        | nil =>
            obtain ⟨rfl, -⟩ := List.cons_prefix_cons.1 listed
            simpa [QuotaEvent.demand, TokenBucket.run] using head
        | cons _ earlier =>
            obtain ⟨rfl, tail⟩ := List.cons_prefix_cons.1 listed
            exact others earlier event tail
      · intro admitted
        refine ⟨fun earlier event listed => ?_, ?_⟩
        · exact admitted (first :: earlier) event (List.cons_prefix_cons.2 ⟨rfl, listed⟩)
        · have head := admitted [] first (List.cons_prefix_cons.2 ⟨rfl, List.nil_prefix⟩)
          simpa [QuotaEvent.demand, TokenBucket.run] using head

/-- The bucket admits no more over a window than its capacity and what is refilled in it, its level stays between
nothing and the capacity, and the simulation tells no violation exactly when each prefix is admitted. -/
theorem simulateSession_bounded (codec : Codec) (messages : List StoredMessage) {rate capacity : ℚ} (nonneg : 0 ≤ rate)
    (room : 0 ≤ capacity) :
    let events := extractQuotaEvents codec messages
    let bucket := TokenBucket.new rate capacity
    (∀ s t, s ≤ t → bucket.admittedBetween s t (events.map QuotaEvent.demand) ≤ capacity + rate * (t - s)) ∧
    (∀ earlier, earlier <+: events → ∀ now,
      let reached := bucket.run (earlier.map QuotaEvent.demand)
      (0 ≤ reached.tokens ∧ reached.tokens ≤ capacity) ∧
        0 ≤ (reached.refill now).tokens ∧ (reached.refill now).tokens ≤ capacity) ∧
    ((simulateSession codec messages rate capacity).totalViolations = 0 ↔
      ∀ earlier event, earlier ++ [event] <+: events →
        ((bucket.run (earlier.map QuotaEvent.demand)).tryConsume event.tokens event.tsS).2 = true) := by
  intro events bucket
  have valid : bucket.Valid := TokenBucket.valid_new nonneg room
  refine ⟨fun s t ordered => ?_, fun earlier _ now => ?_, ?_⟩
  · rw [mul_comm]
    exact TokenBucket.admittedBetween_le ordered valid (demands_nonneg events) (extractQuotaEvents_sorted codec messages)
  · have reached := valid.run (demands_nonneg earlier)
    have refilled := reached.refill now
    have same : (bucket.run (earlier.map QuotaEvent.demand)).capacity = capacity := TokenBucket.run_capacity _ _
    exact ⟨⟨reached.nonneg, same ▸ reached.le_capacity⟩, refilled.nonneg, same ▸ refilled.le_capacity⟩
  · rw [simulateSession, simulateEvents, ← count_false_eq_zero_iff]
    dsimp only
    rw [(simulation_foldl _ _ _).2]
    simp [Simulation.start, bucket, events]

/-- A call and, a second later, a response that reports its usage. -/
def reportedCall : List StoredMessage :=
  [⟨1, 1000000000, "c2s", "request", some "1", some "tools/call", none, "", 0, false, none⟩,
    ⟨2, 2000000000, "s2c", "response", some "1", none, none,
      Compact.codec.toString (.object [("usage", .object [("total_tokens", .number (.posInt 200))])]), 0, false, none⟩]

theorem simulateSession_bounded_call :
    (TokenBucket.new (100 : ℚ) 300).admittedBetween 1 2
        ((extractQuotaEvents Compact.codec reportedCall).map QuotaEvent.demand) ≤ 300 + 100 * (2 - 1) ∧
      ((simulateSession Compact.codec reportedCall 100 300).totalViolations = 0 ↔
        ∀ earlier event, earlier ++ [event] <+: extractQuotaEvents Compact.codec reportedCall →
          (((TokenBucket.new 100 300).run (earlier.map QuotaEvent.demand)).tryConsume event.tokens event.tsS).2 = true) := by
  have bounded := simulateSession_bounded Compact.codec reportedCall (by norm_num : (0 : ℚ) ≤ 100)
    (by norm_num : (0 : ℚ) ≤ 300)
  exact ⟨bounded.1 1 2 (by norm_num), bounded.2.2⟩

/-- The second of two debits exceeds what is left of the capacity. -/
example : (simulateEvents [⟨"c1", 0, 200, .reported, none⟩, ⟨"c2", 1 / 10, 200, .estimatedFromBytes, none⟩]
    100 300).firstViolationCallId = some "c2" := by decide +kernel

end McpTracer.Model
