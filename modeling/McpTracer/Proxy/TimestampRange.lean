import McpTracer.Model.Latencies
import McpTracer.Proxy.ReplayPace
import McpTracer.Storage.Identity

/-! The range of timestamp arithmetic.

Nothing on the way from an artifact to the arithmetic bounds a time: validation reads none, and the store
keeps each as it is. What is computed on the times of two imported artifacts stays in range exactly when
the times themselves lie close enough, answer to request, call to aligned call and message to message.
-/

set_option autoImplicit false

namespace McpTracer.Proxy.TimestampRange
open McpTracer.Foundation McpTracer.Json McpTracer.Model McpTracer.Protocol McpTracer.Storage
open McpTracer.Proxy.Replay

/-! ## What is computed, and on what -/

/-- Correlating either session, comparing them and replaying either overflows nowhere. -/
structure InRange (codec : Codec) (as bs : List StoredMessage) : Prop where
  correlated : ∀ source ∈ [as, bs], ∀ latency ∈ computedLatencies codec source, IsI64 latency
  compared : ∀ options, ∀ delta ∈ computedDeltas codec as bs options, IsI64 delta
  replayed : ∀ source ∈ [as, bs], ∀ around args, around.codec = codec →
    ∀ delta ∈ runDeltas around args source, IsI64 delta

/-- The times lie close enough to be subtracted. -/
structure Close (codec : Codec) (as bs : List StoredMessage) : Prop where
  answered : ∀ source ∈ [as, bs], ∀ request response, Paired codec source request response →
    IsI64 (response.tsNs - request.tsNs)
  aligned : ∀ request response other reply, AlignedCalls codec as bs request response other reply →
    |latencyDelta request response other reply| < 2 ^ 63
  driven : ∀ source ∈ [as, bs], ∀ allowTool denyTool,
    (replayedMessages codec source allowTool denyTool).IsChain fun earlier later =>
      IsI64 (later.tsNs - earlier.tsNs)

/-- Only the least number is out of range by its absolute value alone. -/
theorem isI64_abs_iff {n : Int} : IsI64 n ∧ IsI64 |n| ↔ |n| < 2 ^ 63 := by
  unfold IsI64
  rcases abs_cases n with sign | sign <;> omega

/-- A server that says nothing, for a library. -/
def silentFor (codec : Codec) : ReplaySurroundings := { silentServer with codec := codec }

/-- A replay under these filters, at the recorded pace. -/
def pacedArgs (allowTool denyTool : List String) : ReplayArgs :=
  { plainArgs with realtime := true, allowTool, denyTool }

theorem silentFor_quiet (codec : Codec) : Quiet (silentFor codec) := ⟨fun _ => rfl, fun _ => rfl⟩

section
variable {codec : Codec} {as bs : List StoredMessage}

theorem replayed_of_driven {source : List StoredMessage} (distinct : (source.map StoredMessage.seq).Nodup)
    (driven : ∀ allowTool denyTool, (replayedMessages codec source allowTool denyTool).IsChain fun earlier later =>
      IsI64 (later.tsNs - earlier.tsNs)) {around : ReplaySurroundings} {args : ReplayArgs}
    (library : around.codec = codec) : ∀ delta ∈ runDeltas around args source, IsI64 delta := by
  intro delta computed
  have gap := (runDeltas_within distinct).subset computed
  rw [library] at gap
  exact forall_gapsFrom_iff.2 (driven args.allowTool args.denyTool) delta gap

theorem driven_of_replayed {source : List StoredMessage} (distinct : (source.map StoredMessage.seq).Nodup)
    (readable : ∀ message ∈ source, (codec.fromStr message.payload).isSome = true)
    (replayed : ∀ around args, around.codec = codec → ∀ delta ∈ runDeltas around args source, IsI64 delta)
    (allowTool denyTool : List String) : (replayedMessages codec source allowTool denyTool).IsChain
      fun earlier later => IsI64 (later.tsNs - earlier.tsNs) := by
  refine forall_gapsFrom_iff.1 fun gap member => replayed (silentFor codec) (pacedArgs allowTool denyTool) rfl gap ?_
  rw [runDeltas_quiet distinct (silentFor_quiet codec) rfl readable]
  exact member

/-- The arithmetic on two sessions stays in range if and only if their times lie close enough. -/
theorem inRange_iff_close (first : StoredMessage.Increasing as) (second : StoredMessage.Increasing bs)
    (readable : ∀ source ∈ [as, bs], ∀ message ∈ source, (codec.fromStr message.payload).isSome = true) :
    InRange codec as bs ↔ Close codec as bs := by
  have increasing : ∀ source ∈ [as, bs], StoredMessage.Increasing source := by simp [first, second]
  have distinct : ∀ source ∈ [as, bs], (source.map StoredMessage.seq).Nodup := fun source member =>
    List.pairwise_map.2 ((increasing source member).imp Nat.ne_of_lt)
  constructor
  · intro inRange
    refine ⟨fun source member request response paired => ?_, fun request response other reply aligned => ?_,
      fun source member => ?_⟩
    · exact inRange.correlated source member _
        ((mem_computedLatencies_iff (increasing source member)).2 ⟨request, response, paired, rfl⟩)
    · have computed {value : Int} (result : value = latencyDelta request response other reply ∨
          value = |latencyDelta request response other reply|) : IsI64 value :=
        inRange.compared .standard value
          ((mem_computedDeltas_iff first second).2 ⟨rfl, request, response, other, reply, aligned, result⟩)
      exact isI64_abs_iff.1 ⟨computed (.inl rfl), computed (.inr rfl)⟩
    · exact driven_of_replayed (distinct source member) (readable source member) (inRange.replayed source member)
  · intro close
    refine ⟨fun source member latency computed => ?_, fun options delta computed => ?_,
      fun source member around args library => ?_⟩
    · obtain ⟨request, response, paired, rfl⟩ := (mem_computedLatencies_iff (increasing source member)).1 computed
      exact close.answered source member request response paired
    · obtain ⟨-, request, response, other, reply, aligned, result⟩ := (mem_computedDeltas_iff first second).1 computed
      obtain ⟨plain, absolute⟩ := isI64_abs_iff.2 (close.aligned request response other reply aligned)
      rcases result with rfl | rfl
      · exact plain
      · exact absolute
    · exact replayed_of_driven (distinct source member) (close.driven source member) library

/-- Times within 2^62 nanoseconds of each other are close enough. -/
theorem close_of_span {start : Int} (span : ∀ source ∈ [as, bs], ∀ message ∈ source,
    start ≤ message.tsNs ∧ message.tsNs < start + 2 ^ 62) : Close codec as bs := by
  have between {source : List StoredMessage} (listed : source ∈ [as, bs]) {earlier later : StoredMessage}
      (left : earlier ∈ source) (right : later ∈ source) : |later.tsNs - earlier.tsNs| < 2 ^ 62 := by
    have low := span source listed earlier left
    have high := span source listed later right
    rw [abs_lt]
    omega
  have near {n : Int} (small : |n| < 2 ^ 62) : IsI64 n := by
    rw [abs_lt] at small
    unfold IsI64
    omega
  refine ⟨fun source listed request response paired => near (between listed paired.mem.1 paired.mem.2),
    fun request response other reply aligned => ?_, fun source listed allowTool denyTool => ?_⟩
  · have took := between List.mem_cons_self aligned.paired.mem.1 aligned.paired.mem.2
    have otherTook := between (List.mem_cons_of_mem _ List.mem_cons_self) aligned.otherPaired.mem.1
      aligned.otherPaired.mem.2
    rw [abs_lt] at took otherTook
    rw [latencyDelta, abs_lt]
    omega
  · have recorded : ∀ message ∈ replayedMessages codec source allowTool denyTool, message ∈ source := by
      intro message member
      unfold replayedMessages at member
      dsimp only at member
      split at member
      · cases member
      · exact (mem_allowedMessages_iff.1 (List.mem_filter.1 member).1).1
    refine List.Pairwise.isChain (List.pairwise_iff_forall_sublist.2 fun pair => ?_)
    exact near (between listed (recorded _ (pair.subset List.mem_cons_self))
      (recorded _ (pair.subset (List.mem_cons_of_mem _ List.mem_cons_self))))

end

/-! ## Imported artifacts -/

section Import
variable {codec : Codec} {db between after : Database} {firstId secondId : Uuid} {first second : MtraceDocument}
  {firstResult secondResult : MtraceImportResult} {as bs : List StoredMessage}

theorem increasing_of_valid {document : MtraceDocument} (valid : validate codec document = .ok ()) :
    StoredMessage.Increasing (document.messages.map (MtraceMessage.stored codec)) := by
  obtain ⟨-, -, -, policy, -, -, checked⟩ := validate_checked valid
  exact List.pairwise_map.2 (validateMessages_increasing checked).2

/-- Of two artifacts that are imported one after the other, the store returns the messages of each. -/
theorem getMessages_imported (importedFirst : ImportedAs codec db firstId first between)
    (importedSecond : ImportedAs codec between secondId second after) :
    after.getMessages firstId.text = .ok (first.messages.map (MtraceMessage.stored codec)) ∧
      after.getMessages secondId.text = .ok (second.messages.map (MtraceMessage.stored codec)) := by
  have listed : importedSession codec firstId first.session first.messages.length ∈ between.sessions := by
    simp [importedFirst.sessions]
  have differs : firstId ≠ secondId := fun same =>
    importedSecond.fresh (same ▸ List.mem_map_of_mem (f := SessionRow.id) listed)
  constructor
  · rw [← importedFirst.messages, ← importedSecond.others firstId differs]
    refine @Database.getMessages_text after (importedSession codec firstId first.session first.messages.length) ?_
    rw [importedSecond.sessions]
    exact List.mem_append_left _ listed
  · rw [← importedSecond.messages]
    refine @Database.getMessages_text after (importedSession codec secondId second.session second.messages.length) ?_
    simp [importedSecond.sessions]

/-- What is computed on the times of two imported artifacts stays in range if and only if these times lie
close enough. -/
theorem timestamps_in_range_iff (importFirst : importMtraceDocument codec db firstId first = .ok (between, firstResult))
    (importSecond : importMtraceDocument codec between secondId second = .ok (after, secondResult))
    (readFirst : after.getMessages firstResult.sessionId.text = .ok as)
    (readSecond : after.getMessages secondResult.sessionId.text = .ok bs)
    (printed : ∀ message ∈ first.messages ++ second.messages,
      (codec.fromStr (codec.toString message.payload)).isSome = true) :
    InRange codec as bs ↔ Close codec (first.messages.map (MtraceMessage.stored codec))
      (second.messages.map (MtraceMessage.stored codec)) := by
  obtain ⟨rfl, importedFirst⟩ := importMtraceDocument_ok importFirst
  obtain ⟨rfl, importedSecond⟩ := importMtraceDocument_ok importSecond
  obtain ⟨firstRead, secondRead⟩ := getMessages_imported importedFirst importedSecond
  obtain rfl := Except.ok.inj (firstRead.symm.trans readFirst)
  obtain rfl := Except.ok.inj (secondRead.symm.trans readSecond)
  refine inRange_iff_close (increasing_of_valid importedFirst.valid) (increasing_of_valid importedSecond.valid) ?_
  intro source listed message member
  rcases List.mem_pair.1 listed with rfl | rfl
  · obtain ⟨recorded, inside, rfl⟩ := List.mem_map.1 member
    exact printed recorded (List.mem_append_left _ inside)
  · obtain ⟨recorded, inside, rfl⟩ := List.mem_map.1 member
    exact printed recorded (List.mem_append_right _ inside)

end Import

/-! ## Artifacts of one call -/

/-- A call and its answer, at these times. -/
def artifactAt (asked answered : Int) : MtraceDocument :=
  { maskedArtifact with messages := [
      { seq := 0, tsNs := asked, direction := "c2s", messageKind := "request", rpcId := some "1",
        method := some "ping", toolName := none,
        payload := .object [("id", .number (.posInt 1)), ("method", .string "ping")],
        payloadBytes := 24, isError := false, errorCode := none },
      { seq := 1, tsNs := answered, direction := "s2c", messageKind := "response", rpcId := some "1",
        method := none, toolName := none,
        payload := .object [("id", .number (.posInt 1)), ("result", .object [])],
        payloadBytes := 20, isError := false, errorCode := none }] }

theorem artifactAt_typed {asked answered : Int} (left : IsI64 asked) (right : IsI64 answered) :
    (artifactAt asked answered).Typed := by
  refine ⟨maskedArtifact_typed.version, maskedArtifact_typed.session, fun message member => ?_⟩
  rcases List.mem_pair.1 member with rfl | rfl
  · exact ⟨by simp [IsU64], left, rfl, by simp [IsU64], nofun⟩
  · exact ⟨by simp [IsU64], right, rfl, by simp [IsU64], nofun⟩

theorem leftId_length : "33333333-3333-4333-8333-333333333333".utf8ByteSize = 36 := by rfl

theorem rightId_length : "44444444-4444-4444-8444-444444444444".utf8ByteSize = 36 := by rfl

def leftId : Uuid := ⟨"33333333-3333-4333-8333-333333333333", leftId_length⟩

def rightId : Uuid := ⟨"44444444-4444-4444-8444-444444444444", rightId_length⟩

/-- Two valid artifacts of a call can be imported one after the other. -/
theorem import_calls {first second : MtraceDocument} (validFirst : validate Compact.codec first = .ok ())
    (validSecond : validate Compact.codec second = .ok ())
    (fitsFirst : ∀ message ∈ first.messages, message.seq < 2 ^ 63 ∧ message.payloadBytes < 2 ^ 63)
    (fitsSecond : ∀ message ∈ second.messages, message.seq < 2 ^ 63 ∧ message.payloadBytes < 2 ^ 63) :
    ∃ between after firstResult secondResult,
      importMtraceDocument Compact.codec .empty leftId first = .ok (between, firstResult) ∧
      importMtraceDocument Compact.codec between rightId second = .ok (after, secondResult) ∧
      after.getMessages firstResult.sessionId.text = .ok (first.messages.map (MtraceMessage.stored Compact.codec)) ∧
      after.getMessages secondResult.sessionId.text =
        .ok (second.messages.map (MtraceMessage.stored Compact.codec)) := by
  have freshFirst : leftId ∉ Database.empty.sessions.map SessionRow.id := List.not_mem_nil
  obtain ⟨between, importFirst, -, -⟩ := importMtraceDocument_of_valid validFirst freshFirst fitsFirst
  obtain ⟨-, importedFirst⟩ := importMtraceDocument_ok importFirst
  have freshSecond : rightId ∉ between.sessions.map SessionRow.id := by
    rw [importedFirst.sessions]
    intro member
    have same : rightId = leftId := List.mem_singleton.1 member
    exact absurd (congrArg Uuid.text same) (by decide +kernel)
  obtain ⟨after, importSecond, -, -⟩ := importMtraceDocument_of_valid validSecond freshSecond fitsSecond
  obtain ⟨-, importedSecond⟩ := importMtraceDocument_ok importSecond
  obtain ⟨readFirst, readSecond⟩ := getMessages_imported importedFirst importedSecond
  exact ⟨between, after, _, _, importFirst, importSecond, readFirst, readSecond⟩

/-- Artifacts whose times lie within nanoseconds are compared without overflow. -/
theorem timestamps_in_range_calls : ∃ between after firstResult secondResult as bs,
    importMtraceDocument Compact.codec .empty leftId (artifactAt 0 5) = .ok (between, firstResult) ∧
      importMtraceDocument Compact.codec between rightId (artifactAt 7 9) = .ok (after, secondResult) ∧
      after.getMessages firstResult.sessionId.text = .ok as ∧ after.getMessages secondResult.sessionId.text = .ok bs ∧
      InRange Compact.codec as bs := by
  obtain ⟨between, after, firstResult, secondResult, importFirst, importSecond, readFirst, readSecond⟩ :=
    @import_calls (artifactAt 0 5) (artifactAt 7 9) (by decide +kernel) (by decide +kernel) (by decide) (by decide)
  refine ⟨between, after, firstResult, secondResult, _, _, importFirst, importSecond, readFirst, readSecond, ?_⟩
  refine (timestamps_in_range_iff importFirst importSecond readFirst readSecond (by decide +kernel)).2 ?_
  exact @close_of_span _ _ _ 0 (by decide +kernel)

/-- An answer at the last instant to a request at the first is accepted and imported, and its latency overflows. -/
theorem latency_overflows : ¬ ∀ (codec : Codec) (db between after : Database) (firstId secondId : Uuid)
    (first second : MtraceDocument) (firstResult secondResult : MtraceImportResult) (as bs : List StoredMessage),
    first.Typed → second.Typed → validate codec first = .ok () → validate codec second = .ok () →
    importMtraceDocument codec db firstId first = .ok (between, firstResult) →
    importMtraceDocument codec between secondId second = .ok (after, secondResult) →
    after.getMessages firstResult.sessionId.text = .ok as → after.getMessages secondResult.sessionId.text = .ok bs →
    InRange codec as bs := by
  intro bounded
  have least : IsI64 (-2 ^ 63) := ⟨by decide, by decide⟩
  have greatest : IsI64 (2 ^ 63 - 1) := ⟨by decide, by decide⟩
  have valid : validate Compact.codec (artifactAt (-2 ^ 63) (2 ^ 63 - 1)) = .ok () := by decide +kernel
  have fits : ∀ message ∈ (artifactAt (-2 ^ 63) (2 ^ 63 - 1)).messages,
      message.seq < 2 ^ 63 ∧ message.payloadBytes < 2 ^ 63 := by decide
  obtain ⟨between, after, firstResult, secondResult, importFirst, importSecond, readFirst, readSecond⟩ :=
    import_calls valid valid fits fits
  have artifact := artifactAt_typed least greatest
  have inRange := bounded _ _ _ _ _ _ _ _ _ _ _ _ artifact artifact valid valid importFirst importSecond readFirst
    readSecond
  have computed : 2 ^ 64 - 1 ∈ computedLatencies Compact.codec
      ((artifactAt (-2 ^ 63) (2 ^ 63 - 1)).messages.map (MtraceMessage.stored Compact.codec)) := by decide +kernel
  exact absurd (inRange.correlated _ List.mem_cons_self _ computed) (by unfold IsI64; decide)

end McpTracer.Proxy.TimestampRange
