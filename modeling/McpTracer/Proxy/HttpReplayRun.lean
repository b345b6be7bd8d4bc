import McpTracer.Model.Health
import McpTracer.Proxy.HttpReplay

/-! What a replay over HTTP posts.

Every post is the driven message of the same index, as it was recorded or as the retry that the target
has asked for in answer to the post before.
-/

set_option autoImplicit false

namespace McpTracer.Proxy.HttpReplay
open McpTracer.Foundation McpTracer.Json McpTracer.Model McpTracer.Storage

/-! ## Demands for input -/

/-- The demand for input in the outcome of a post; a subscription stream makes none. -/
def demandAt (settings : HttpReplaySettings) (posts : List HttpPost) (outcomes : List TargetOutcome) (index : Nat) :
    Option InputRequired :=
  match posts[index]?, outcomes[index]? with
  | some post, some outcome =>
    if isModernSubscriptionListen post.body then none
    else (outcome.response.inputRequired settings post.body).toOption.join
  | _, _ => none

/-- The demand that a post answers: the one made in answer to the post before. -/
def answeredDemand (settings : HttpReplaySettings) (posts : List HttpPost) (outcomes : List TargetOutcome) :
    Nat → Option InputRequired
  | 0 => none
  | index + 1 => demandAt settings posts outcomes index

/-- How many of the posts before this index are retries. -/
def retriesBefore (settings : HttpReplaySettings) (posts : List HttpPost) (outcomes : List TargetOutcome)
    (index : Nat) : Nat :=
  (List.range index).countP fun before => (answeredDemand settings posts outcomes before).isSome

section
variable {settings : HttpReplaySettings} {posts : List HttpPost} {outcomes : List TargetOutcome}

/-- Later posts do not change what an earlier one answers. -/
theorem answeredDemand_append (settings : HttpReplaySettings) (post : List HttpPost) (outcome : List TargetOutcome) {index : Nat}
    (posted : index ≤ posts.length) (known : index ≤ outcomes.length) :
    answeredDemand settings (posts ++ post) (outcomes ++ outcome) index =
      answeredDemand settings posts outcomes index := by
  cases index with
  | zero => rfl
  | succ before =>
    rw [answeredDemand, answeredDemand, demandAt, demandAt, List.getElem?_append_left posted,
      List.getElem?_append_left known]

theorem retriesBefore_append (settings : HttpReplaySettings) (post : List HttpPost) (outcome : List TargetOutcome) {index : Nat}
    (posted : index ≤ posts.length + 1) (known : index ≤ outcomes.length + 1) :
    retriesBefore settings (posts ++ post) (outcomes ++ outcome) index = retriesBefore settings posts outcomes index := by
  refine List.countP_congr fun before member => ?_
  have below := List.mem_range.1 member
  rw [answeredDemand_append settings post outcome (by omega) (by omega)]

theorem retriesBefore_succ (index : Nat) : retriesBefore settings posts outcomes (index + 1) =
    retriesBefore settings posts outcomes index + if (answeredDemand settings posts outcomes index).isSome then 1 else 0 := by
  rw [retriesBefore, List.range_succ, List.countP_append, List.countP_singleton]
  rfl

theorem retriesBefore_lt {index later : Nat} (retry : (answeredDemand settings posts outcomes index).isSome = true)
    (before : index < later) : retriesBefore settings posts outcomes index < retriesBefore settings posts outcomes later := by
  induction before with
  | refl =>
    rw [retriesBefore_succ, if_pos retry]
    exact Nat.lt_succ_self _
  | step _ ih =>
    rw [retriesBefore_succ]
    omega

/-- The demand that the next post will answer. -/
theorem answeredDemand_next (post : HttpPost) (outcome : TargetOutcome) (aligned : posts.length = outcomes.length) :
    answeredDemand settings (posts ++ [post]) (outcomes ++ [outcome]) (posts.length + 1) =
      if isModernSubscriptionListen post.body then none
      else (outcome.response.inputRequired settings post.body).toOption.join := by
  rw [answeredDemand, demandAt, List.getElem?_concat_length, aligned, List.getElem?_concat_length]

end

theorem getElem?_concat_cases {A : Type} {items : List A} {last item : A} {index : Nat}
    (found : (items ++ [last])[index]? = some item) : items[index]? = some item ∨ index = items.length ∧ item = last := by
  rw [List.getElem?_append] at found
  split at found
  case isTrue => exact .inl found
  case isFalse beyond =>
    obtain ⟨here, same⟩ := List.getElem?_eq_some_iff.1 found
    have at_end : index = items.length := by
      simp only [List.length_singleton] at here
      omega
    exact .inr ⟨at_end, by simpa using same.symm⟩

theorem replayId_injective {m n : Nat} (same : replayId m = replayId n) : m = n := by
  have text : "mcptracer-replay-mrtr-" ++ toString m = "mcptracer-replay-mrtr-" ++ toString n := Value.string.inj same
  have digits : Nat.toDigits 10 m = Nat.toDigits 10 n := by
    have lists := congrArg String.toList text
    simp only [String.toList_append, List.append_cancel_left_eq] at lists
    simpa [Nat.repr] using lists
  rw [← Nat.ofDigitChars_toDigits (by decide : 1 < 10) (Nat.le_refl 10) (n := m), digits,
    Nat.ofDigitChars_toDigits (by decide) (Nat.le_refl 10)]

/-! ## What a step does -/

namespace Drive

/-- The chain whose request is posted next. -/
inductive Turn (settings : HttpReplaySettings) (drive : Drive) : MrtrChain → Prop where
  | retry {chain : MrtrChain} (pending : drive.chain = some chain) : Turn settings drive chain
  | first {message : StoredMessage} {request : Value} (idle : drive.chain = none)
      (next : settings.driven[drive.drivenIndex]? = some message)
      (stored : settings.codec.fromStr message.payload = some request) :
      Turn settings drive (.begin message request)

/-- What a step of an unfinished run does: it ends the run, or it posts one request. -/
inductive Progress (settings : HttpReplaySettings) (drive : Drive) (outcome : TargetOutcome) (after : Drive) : Prop where
  | stopped (result : Except String Unit) (unsent : after.posts = drive.posts) (ended : after.result = some result)
      (complete : result = .ok () → settings.driven[drive.drivenIndex]? = none)
  | broken (chain : MrtrChain) (headers : HeaderMap) (err : String) (turn : Turn settings drive chain)
      (sent : after.posts = drive.posts ++ [⟨chain.replayRequest, headers⟩]) (ended : after.result = some (.error err))
  | advanced (chain : MrtrChain) (headers : HeaderMap) (turn : Turn settings drive chain)
      (sent : after.posts = drive.posts ++ [⟨chain.replayRequest, headers⟩]) (unfinished : after.result = none)
      (index : after.drivenIndex = drive.drivenIndex + 1) (number : after.replayRetryId = drive.replayRetryId)
      (idle : after.chain = none)
      (final : isModernSubscriptionListen chain.replayRequest = true ∨
        outcome.response.inputRequired settings chain.replayRequest = .ok none)
  | retried (chain : MrtrChain) (headers : HeaderMap) (inputRequired : InputRequired) (message : StoredMessage)
      (recordedRetry replayRequest : Value) (turn : Turn settings drive chain)
      (sent : after.posts = drive.posts ++ [⟨chain.replayRequest, headers⟩]) (unfinished : after.result = none)
      (index : after.drivenIndex = drive.drivenIndex + 1) (number : after.replayRetryId = drive.replayRetryId + 1)
      (demand : outcome.response.inputRequired settings chain.replayRequest = .ok (some inputRequired))
      (capable : isMrtrCapableRequest chain.replayRequest = true) (few : chain.rounds < maxMrtrRounds)
      (next : settings.driven[drive.drivenIndex + 1]? = some message)
      (stored : settings.codec.fromStr message.payload = some recordedRetry)
      (built : buildMrtrRetryRequest chain.sourceRequest recordedRetry inputRequired (replayId drive.replayRetryId) =
        .ok replayRequest)
      (pending : after.chain = some
        ⟨chain.firstSeq, message.seq, recordedRetry, replayRequest, chain.rounds + 1⟩)

variable {settings : HttpReplaySettings} {drive : Drive} {outcome : TargetOutcome}

theorem advance_progress {chain : MrtrChain} {headers : HeaderMap} {sent : Drive} (turn : Turn settings drive chain)
    (posted : sent.posts = drive.posts ++ [⟨chain.replayRequest, headers⟩]) (unfinished : sent.result = none)
    (index : sent.drivenIndex = drive.drivenIndex) (number : sent.replayRetryId = drive.replayRetryId)
    (final : isModernSubscriptionListen chain.replayRequest = true ∨
      outcome.response.inputRequired settings chain.replayRequest = .ok none) :
    Progress settings drive outcome (sent.advance outcome.checked) := by
  unfold advance
  dsimp only
  split
  case h_1 => exact .advanced chain headers turn posted unfinished (by rw [index]) number rfl final
  case h_2 err _ => exact .broken chain headers err turn posted rfl

theorem retry_progress {chain : MrtrChain} {headers : HeaderMap} {sent : Drive} {inputRequired : InputRequired}
    (turn : Turn settings drive chain)
    (posted : sent.posts = drive.posts ++ [⟨chain.replayRequest, headers⟩]) (unfinished : sent.result = none)
    (index : sent.drivenIndex = drive.drivenIndex) (number : sent.replayRetryId = drive.replayRetryId)
    (demand : outcome.response.inputRequired settings chain.replayRequest = .ok (some inputRequired)) :
    Progress settings drive outcome (sent.retry settings chain inputRequired) := by
  have broken (err : String) : Progress settings drive outcome (sent.fail err) :=
    .broken chain headers err turn posted rfl
  unfold retry
  split
  case isTrue => exact broken _
  case isFalse capable =>
    split
    case isTrue => exact broken _
    case isFalse few =>
      split
      case h_1 => exact broken _
      case h_2 message next =>
        split
        case h_1 => exact broken _
        case h_2 recordedRetry stored =>
          split
          case h_1 => exact broken _
          case h_2 replayRequest built =>
            rw [index] at next
            rw [number] at built
            exact .retried chain headers inputRequired message recordedRetry replayRequest turn posted unfinished
              (by rw [index]) (by rw [number]) demand (by simpa using capable) (by omega) next stored built rfl

theorem round_progress {chain : MrtrChain} (unfinished : drive.result = none) (turn : Turn settings drive chain) :
    Progress settings drive outcome (drive.round settings chain outcome) := by
  unfold round
  split
  case h_1 err _ => exact .stopped (.error err) rfl rfl (fun done => nomatch done)
  case h_2 headers _ =>
    dsimp only
    split
    case h_1 err _ => exact .broken chain headers err turn rfl rfl
    case h_2 final => exact advance_progress turn rfl unfinished rfl rfl (.inr final)
    case h_3 inputRequired demand => exact retry_progress turn rfl unfinished rfl rfl demand

theorem listen_progress {message : StoredMessage} {request : Value} (unfinished : drive.result = none)
    (turn : Turn settings drive (.begin message request)) (listens : isModernSubscriptionListen request = true) :
    Progress settings drive outcome (drive.listen settings message request outcome) := by
  have refused (err : String) : Progress settings drive outcome (drive.fail err) :=
    .stopped (.error err) rfl rfl (fun done => nomatch done)
  unfold listen
  split
  case h_1 => exact refused _
  case h_2 expectation _ =>
    split
    case isTrue => exact refused _
    case isFalse =>
      split
      case h_1 => exact refused _
      case h_2 headers _ =>
        dsimp only
        split
        case h_1 err _ => exact .broken _ headers err turn rfl rfl
        case h_2 => exact advance_progress turn rfl unfinished rfl rfl (.inl listens)

theorem step_progress (outcome : TargetOutcome) (unfinished : drive.result = none) :
    Progress settings drive outcome (drive.step settings outcome) := by
  unfold step
  split
  case h_1 ended => simp [unfinished] at ended
  case h_2 chain _ pending => exact round_progress unfinished (.retry pending)
  case h_3 _ idle =>
    split
    case h_1 none_left => exact .stopped outcome.waited rfl rfl fun _ => none_left
    case h_2 message next =>
      split
      case h_1 =>
        refine .stopped _ rfl rfl fun done => ?_
        cases done
      case h_2 request stored =>
        split
        case isTrue listens => exact listen_progress unfinished (.first idle next stored) listens
        case isFalse => exact round_progress unfinished (.first idle next stored)

end Drive

/-! ## Whole runs -/

/-- Two requests that the comparison of retries takes for the same. -/
def SameRequest (request other : Value) : Prop :=
  ∃ base otherBase, requestWithoutMrtrFields request = .ok base ∧ requestWithoutMrtrFields other = .ok otherBase ∧
    base.beq otherBase = true

/-- A post is what the recording has at its index, as recorded or as the retry that was asked for. -/
structure Posted (settings : HttpReplaySettings) (posts : List HttpPost) (outcomes : List TargetOutcome) (index : Nat)
    (body stored : Value) : Prop where
  recorded : ∃ message, settings.driven[index]? = some message ∧
    settings.codec.fromStr message.payload = some stored
  verbatim : answeredDemand settings posts outcomes index = none → body = stored
  retry : ∀ inputRequired, answeredDemand settings posts outcomes index = some inputRequired →
    body = retryWith inputRequired.requestState (replayId (retriesBefore settings posts outcomes index + 1)) stored ∧
      body.get "id" = some (replayId (retriesBefore settings posts outcomes index + 1)) ∧
      requestStateOf body = inputRequired.requestState.map Value.string ∧
      ∃ previous, posts[index - 1]? = some previous ∧ SameRequest previous.body body

/-- What is known of the chain that is under way. -/
structure Pending (settings : HttpReplaySettings) (posts : List HttpPost) (outcomes : List TargetOutcome)
    (chain : MrtrChain) : Prop where
  posted : Posted settings posts outcomes posts.length chain.replayRequest chain.sourceRequest
  demanded : answeredDemand settings posts outcomes posts.length ≠ none
  begun : ∃ first, first + chain.rounds = posts.length ∧ answeredDemand settings posts outcomes first = none
  few : chain.rounds ≤ maxMrtrRounds

/-- What holds after every step. -/
structure RunSound (settings : HttpReplaySettings) (outcomes : List TargetOutcome) (drive : Drive) : Prop where
  known : drive.posts.length ≤ outcomes.length
  posted : ∀ index post, drive.posts[index]? = some post →
    ∃ stored, Posted settings drive.posts outcomes index post.body stored
  rounds : ∀ index < drive.posts.length, ∃ first ≤ index, index ≤ first + maxMrtrRounds ∧
    answeredDemand settings drive.posts outcomes first = none
  complete : drive.result = some (.ok ()) → settings.driven[drive.posts.length]? = none
  aligned : drive.result = none → drive.posts.length = outcomes.length ∧ drive.drivenIndex = drive.posts.length ∧
    drive.replayRetryId = retriesBefore settings drive.posts outcomes (drive.posts.length + 1) + 1
  idle : drive.result = none → drive.chain = none →
    answeredDemand settings drive.posts outcomes drive.posts.length = none
  pending : ∀ chain, drive.result = none → drive.chain = some chain → Pending settings drive.posts outcomes chain

section
variable {settings : HttpReplaySettings} {posts : List HttpPost} {outcomes : List TargetOutcome}

theorem Posted.append {index : Nat} {body stored : Value} (posted : Posted settings posts outcomes index body stored)
    (post : List HttpPost) (outcome : List TargetOutcome) (before : index ≤ posts.length)
    (known : index ≤ outcomes.length) : Posted settings (posts ++ post) (outcomes ++ outcome) index body stored := by
  have demand := answeredDemand_append settings post outcome before known
  have count := retriesBefore_append settings post outcome (Nat.le_succ_of_le before)
    (Nat.le_succ_of_le known)
  refine ⟨posted.recorded, fun unasked => posted.verbatim (demand ▸ unasked), fun inputRequired asked => ?_⟩
  obtain ⟨same, id, state, previous, found, preserved⟩ := posted.retry inputRequired (demand ▸ asked)
  rw [count]
  refine ⟨same, id, state, previous, ?_, preserved⟩
  rwa [List.getElem?_append_left (List.getElem?_eq_some_iff.1 found).1]

theorem Posted.withoutRetryFields_eq {index : Nat} {body stored : Value}
    (posted : Posted settings posts outcomes index body stored) : withoutRetryFields body = withoutRetryFields stored := by
  cases asked : answeredDemand settings posts outcomes index with
  | none => rw [posted.verbatim asked]
  | some inputRequired =>
    rw [(posted.retry inputRequired asked).1]
    exact withoutRetryFields_retryWith _ _ _

theorem not_listen_of_capable {request : Value} (capable : isMrtrCapableRequest request = true) :
    isModernSubscriptionListen request = false := by
  unfold isMrtrCapableRequest at capable
  unfold isModernSubscriptionListen
  cases method : methodOf request with
  | none => simp [method] at capable
  | some name =>
    simp only [method, Option.some.injEq, Bool.and_eq_true, Bool.or_eq_true, decide_eq_true_eq] at capable
    obtain ⟨-, (rfl | rfl) | rfl⟩ := capable <;> simp

/-- The request of a turn is what the recording has at the index of the next post. -/
theorem RunSound.turn {drive : Drive} {chain : MrtrChain} (sound : RunSound settings outcomes drive)
    (unfinished : drive.result = none) (turn : Drive.Turn settings drive chain) :
    Posted settings drive.posts outcomes drive.posts.length chain.replayRequest chain.sourceRequest ∧
      (∃ first, first + chain.rounds = drive.posts.length ∧ answeredDemand settings drive.posts outcomes first = none) ∧
      chain.rounds ≤ maxMrtrRounds := by
  cases turn with
  | retry underway =>
    have pending := sound.pending _ unfinished underway
    exact ⟨pending.posted, pending.begun, pending.few⟩
  | @first message request idle next stored =>
    have unasked := sound.idle unfinished idle
    rw [(sound.aligned unfinished).2.1] at next
    refine ⟨⟨⟨message, next, stored⟩, fun _ => rfl, fun _ asked => ?_⟩, ⟨drive.posts.length, rfl, unasked⟩, Nat.zero_le _⟩
    simp [unasked] at asked

/-- What was posted before stays as it is when the request of a turn is posted. -/
theorem RunSound.sent {drive after : Drive} {chain : MrtrChain} {headers : HeaderMap} {outcome : TargetOutcome}
    (sound : RunSound settings outcomes drive) (unfinished : drive.result = none)
    (turn : Drive.Turn settings drive chain) (sent : after.posts = drive.posts ++ [⟨chain.replayRequest, headers⟩])
    (incomplete : after.result ≠ some (.ok ()))
    (aligned : after.result = none → after.drivenIndex = drive.posts.length + 1 ∧
      after.replayRetryId = retriesBefore settings after.posts (outcomes ++ [outcome]) (drive.posts.length + 2) + 1)
    (idle : after.result = none → after.chain = none →
      answeredDemand settings after.posts (outcomes ++ [outcome]) (drive.posts.length + 1) = none)
    (pending : ∀ chain, after.result = none → after.chain = some chain →
      Pending settings after.posts (outcomes ++ [outcome]) chain) :
    RunSound settings (outcomes ++ [outcome]) after := by
  obtain ⟨turnPosted, ⟨first, begun, unasked⟩, few⟩ := sound.turn unfinished turn
  have length : after.posts.length = drive.posts.length + 1 := by simp [sent]
  have known := (sound.aligned unfinished).1
  constructor
  case known => simp [length, known]
  case posted =>
    rw [sent]
    intro index post found
    rcases getElem?_concat_cases found with earlier | ⟨rfl, rfl⟩
    · obtain ⟨stored, posted⟩ := sound.posted index post earlier
      have before := (List.getElem?_eq_some_iff.1 earlier).1
      exact ⟨stored, posted.append _ _ (by omega) (by omega)⟩
    · exact ⟨_, turnPosted.append _ _ (Nat.le_refl _) (Nat.le_of_eq known)⟩
  case rounds =>
    rw [sent]
    intro index before
    rcases Nat.lt_succ_iff_lt_or_eq.1 (by simpa using before) with earlier | rfl
    · obtain ⟨first, le, near, unasked⟩ := sound.rounds index earlier
      exact ⟨first, le, near, by rwa [answeredDemand_append _ _ _ (by omega) (by omega)]⟩
    · exact ⟨first, by omega, by omega, by rwa [answeredDemand_append _ _ _ (by omega) (by omega)]⟩
  case complete => exact fun done => absurd done incomplete
  case aligned =>
    intro continues
    rw [length]
    exact ⟨by simp [known], aligned continues⟩
  case idle =>
    rw [length]
    exact idle
  case pending => exact pending

/-- Where nothing is posted any more, one more outcome makes no difference. -/
theorem RunSound.ended {drive after : Drive} {outcome : TargetOutcome} {result : Except String Unit}
    (sound : RunSound settings outcomes drive) (unsent : after.posts = drive.posts) (ended : after.result = some result)
    (complete : result = .ok () → settings.driven[drive.posts.length]? = none) :
    RunSound settings (outcomes ++ [outcome]) after := by
  have same {index : Nat} (posted : index ≤ drive.posts.length) :
      answeredDemand settings drive.posts (outcomes ++ [outcome]) index =
        answeredDemand settings drive.posts outcomes index := by
    have grown := answeredDemand_append settings [] [outcome] posted (Nat.le_trans posted sound.known)
    rwa [List.append_nil] at grown
  constructor
  case known =>
    rw [unsent]
    exact Nat.le_trans sound.known (by simp)
  case posted =>
    rw [unsent]
    intro index post found
    obtain ⟨stored, posted⟩ := sound.posted index post found
    have before := (List.getElem?_eq_some_iff.1 found).1
    have grown := posted.append [] [outcome] (by omega) (Nat.le_trans (by omega) sound.known)
    rw [List.append_nil] at grown
    exact ⟨stored, grown⟩
  case rounds =>
    rw [unsent]
    intro index before
    obtain ⟨first, le, near, unasked⟩ := sound.rounds index before
    exact ⟨first, le, near, by rwa [same (by omega)]⟩
  case complete =>
    rw [unsent, ended]
    exact fun done => complete (Option.some.inj done)
  all_goals simp [ended]

theorem RunSound.retried {drive after : Drive} {chain : MrtrChain} {headers : HeaderMap} {outcome : TargetOutcome}
    {inputRequired : InputRequired} {message : StoredMessage} {recordedRetry replayRequest : Value}
    (sound : RunSound settings outcomes drive) (unfinished : drive.result = none)
    (turn : Drive.Turn settings drive chain) (sent : after.posts = drive.posts ++ [⟨chain.replayRequest, headers⟩])
    (demanded : answeredDemand settings after.posts (outcomes ++ [outcome]) (drive.posts.length + 1) =
      some inputRequired) (few : chain.rounds < maxMrtrRounds)
    (next : settings.driven[drive.drivenIndex + 1]? = some message)
    (stored : settings.codec.fromStr message.payload = some recordedRetry)
    (built : buildMrtrRetryRequest chain.sourceRequest recordedRetry inputRequired (replayId drive.replayRetryId) =
      .ok replayRequest) :
    Pending settings after.posts (outcomes ++ [outcome])
      ⟨chain.firstSeq, message.seq, recordedRetry, replayRequest, chain.rounds + 1⟩ := by
  have ⟨known, index, number⟩ := sound.aligned unfinished
  obtain ⟨turnPosted, ⟨first, begun, unasked⟩, -⟩ := sound.turn unfinished turn
  have length : after.posts.length = drive.posts.length + 1 := by simp [sent]
  obtain ⟨same, ⟨base, retryBase, source, recorded, preserved⟩, id, state⟩ := buildMrtrRetryRequest_eq_ok built
  have counted : retriesBefore settings after.posts (outcomes ++ [outcome]) (drive.posts.length + 1) + 1 =
      drive.replayRetryId := by
    rw [sent, retriesBefore_append _ _ _ (Nat.le_refl _) (by omega), number]
  constructor
  case posted =>
    rw [length]
    refine ⟨⟨message, index ▸ next, stored⟩, fun undemanded => ?_, fun asked demand => ?_⟩
    · simp [demanded] at undemanded
    · obtain rfl : asked = inputRequired := by simpa [demanded] using demand.symm
      rw [counted]
      refine ⟨same, id, state, ⟨chain.replayRequest, headers⟩, by simp [sent], base, retryBase, ?_, ?_, preserved⟩
      · rw [requestWithoutMrtrFields_congr turnPosted.withoutRetryFields_eq, source]
      · rw [same, requestWithoutMrtrFields_congr (withoutRetryFields_retryWith _ _ _), recorded]
  case demanded => simp [length, demanded]
  case begun => exact ⟨first, by simp only [length]; omega, by rwa [sent, answeredDemand_append _ _ _ (by omega) (by omega)]⟩
  case few => exact few

theorem RunSound.step {drive : Drive} (sound : RunSound settings outcomes drive) (outcome : TargetOutcome) :
    RunSound settings (outcomes ++ [outcome]) (drive.step settings outcome) := by
  cases result : drive.result with
  | some result' =>
    have same : drive.step settings outcome = drive := by rw [Drive.step, result]
    rw [same]
    refine sound.ended rfl result fun done => sound.complete ?_
    rw [result, done]
  | none =>
    have ⟨known, index, number⟩ := sound.aligned result
    have counted (post : HttpPost) : retriesBefore settings (drive.posts ++ [post]) (outcomes ++ [outcome])
        (drive.posts.length + 1) + 1 = drive.replayRetryId := by
      rw [retriesBefore_append _ _ _ (Nat.le_refl _) (by omega), number]
    cases Drive.step_progress outcome result with
    | stopped result' unsent ended complete =>
      rw [index] at complete
      exact sound.ended unsent ended complete
    | broken chain headers err turn sent ended =>
      refine sound.sent result turn sent ?_ ?_ ?_ ?_ <;> simp [ended]
    | advanced chain headers turn sent unfinished index' number' idle final =>
      have undemanded : answeredDemand settings (drive.step settings outcome).posts (outcomes ++ [outcome])
          (drive.posts.length + 1) = none := by
        rw [sent, answeredDemand_next _ _ known]
        rcases final with listens | final
        · rw [if_pos listens]
        · rw [final]
          exact ite_self none
      refine sound.sent result turn sent (by simp [unfinished]) (fun _ => ⟨by omega, ?_⟩) (fun _ _ => undemanded) ?_
      · rw [retriesBefore_succ, undemanded, sent, number', ← counted]
        rfl
      · simp [idle]
    | retried chain headers inputRequired message recordedRetry replayRequest turn sent unfinished index' number' demand
        capable few next stored built pending =>
      have demanded : answeredDemand settings (drive.step settings outcome).posts (outcomes ++ [outcome])
          (drive.posts.length + 1) = some inputRequired := by
        rw [sent, answeredDemand_next _ _ known, not_listen_of_capable capable, demand]
        rfl
      refine sound.sent result turn sent (by simp [unfinished]) (fun _ => ⟨by omega, ?_⟩) ?_ ?_
      · rw [retriesBefore_succ, demanded, sent, number', ← counted]
        rfl
      · simp [pending]
      · intro other _ underway
        obtain rfl := Option.some.inj (pending.symm.trans underway)
        exact sound.retried result turn sent demanded few next stored built

theorem runSound (settings : HttpReplaySettings) (outcomes : List TargetOutcome) :
    RunSound settings outcomes (Drive.run settings outcomes) := by
  unfold Drive.run
  induction outcomes using List.reverseRecOn with
  | nil => constructor <;> simp [Drive.start, answeredDemand, retriesBefore]
  | append_singleton outcomes outcome ih =>
    rw [List.foldl_append]
    exact ih.step outcome

end

/-- Every driven message is posted at most once and in order; a retry keeps to the recorded one and to the request
before it. -/
theorem posts_follow_driven (settings : HttpReplaySettings) (outcomes : List TargetOutcome) :
    let posts := (Drive.run settings outcomes).posts
    let answered := answeredDemand settings posts outcomes
    posts.length ≤ settings.driven.length ∧
    ((Drive.run settings outcomes).result = some (.ok ()) → posts.length = settings.driven.length) ∧
    (∀ (index : Nat) post, posts[index]? = some post → ∃ message stored, settings.driven[index]? = some message ∧
      settings.codec.fromStr message.payload = some stored ∧ (answered index = none → post.body = stored) ∧
      (answered index ≠ none → withoutRetryFields post.body = withoutRetryFields stored ∧
        ∃ previous, posts[index - 1]? = some previous ∧ SameRequest previous.body post.body)) ∧
    (∀ (index other : Nat) post otherPost, posts[index]? = some post → posts[other]? = some otherPost →
      answered index ≠ none → answered other ≠ none → post.body.get "id" = otherPost.body.get "id" → index = other) ∧
    ∀ index < posts.length, ∃ first ≤ index, index ≤ first + maxMrtrRounds ∧ answered first = none := by
  intro posts answered
  have sound := runSound settings outcomes
  have within : posts.length ≤ settings.driven.length := by
    by_contra beyond
    obtain ⟨post, found⟩ : ∃ post, posts[settings.driven.length]? = some post :=
      ⟨_, List.getElem?_eq_getElem (Nat.lt_of_not_le beyond)⟩
    obtain ⟨stored, posted⟩ := sound.posted _ post found
    obtain ⟨message, next, -⟩ := posted.recorded
    simp at next
  have number {index : Nat} {post : HttpPost} (found : posts[index]? = some post) (retry : answered index ≠ none) :
      post.body.get "id" = some (replayId (retriesBefore settings posts outcomes index + 1)) := by
    obtain ⟨stored, posted⟩ := sound.posted index post found
    obtain ⟨inputRequired, asked⟩ := Option.ne_none_iff_exists'.1 retry
    exact (posted.retry inputRequired asked).2.1
  refine ⟨within, fun done => ?_, fun index post found => ?_, fun index other post otherPost here there retry otherRetry same => ?_,
    sound.rounds⟩
  · have complete := List.getElem?_eq_none_iff.1 (sound.complete done)
    exact Nat.le_antisymm within complete
  · obtain ⟨stored, posted⟩ := sound.posted index post found
    obtain ⟨message, next, decoded⟩ := posted.recorded
    refine ⟨message, stored, next, decoded, posted.verbatim, fun retry => ?_⟩
    obtain ⟨inputRequired, asked⟩ := Option.ne_none_iff_exists'.1 retry
    exact ⟨posted.withoutRetryFields_eq, (posted.retry inputRequired asked).2.2.2⟩
  · -- A later retry has a larger number.
    rw [number here retry, number there otherRetry] at same
    have equal := replayId_injective (Option.some.inj same)
    rcases Nat.lt_trichotomy index other with less | rfl | greater
    · have below := retriesBefore_lt (Option.ne_none_iff_isSome.1 retry) less
      omega
    · rfl
    · have below := retriesBefore_lt (Option.ne_none_iff_isSome.1 otherRetry) greater
      omega

/-! ## Captured state -/

/-- A request that may be asked for input and carries a state. -/
def carriesState (request : Value) : Bool := isMrtrCapableRequest request && (requestStateOf request).isSome

/-- The state in the body is the one that the target returned when it asked for input. -/
def LiveState (settings : HttpReplaySettings) (posts : List HttpPost) (outcomes : List TargetOutcome) (index : Nat)
    (body : Value) : Prop :=
  ∃ inputRequired, answeredDemand settings posts outcomes index = some inputRequired ∧
    requestStateOf body = inputRequired.requestState.map Value.string

/-- A recorded state is never posted if and only if the target asks for every recorded retry that is posted. -/
theorem live_state_iff (settings : HttpReplaySettings) (outcomes : List TargetOutcome) :
    let posts := (Drive.run settings outcomes).posts
    (∀ (index : Nat) post, posts[index]? = some post → carriesState post.body = true →
      LiveState settings posts outcomes index post.body) ↔
    ∀ (index : Nat) message stored, index < posts.length → settings.driven[index]? = some message →
      settings.codec.fromStr message.payload = some stored → carriesState stored = true →
      answeredDemand settings posts outcomes index ≠ none := by
  intro posts
  have sound := runSound settings outcomes
  constructor
  · intro live index message stored before next decoded carries unasked
    have found : posts[index]? = some posts[index] := List.getElem?_eq_getElem before
    obtain ⟨stored', posted⟩ := sound.posted index _ found
    obtain ⟨message', next', decoded'⟩ := posted.recorded
    obtain rfl := Option.some.inj (next.symm.trans next')
    obtain rfl := Option.some.inj (decoded.symm.trans decoded')
    have same := posted.verbatim unasked
    obtain ⟨inputRequired, asked, -⟩ := live index _ found (same ▸ carries)
    simp [posts, unasked] at asked
  · intro asks index post found carries
    obtain ⟨stored, posted⟩ := sound.posted index post found
    obtain ⟨message, next, decoded⟩ := posted.recorded
    cases asked : answeredDemand settings posts outcomes index with
    | none =>
      have same := posted.verbatim asked
      exact absurd asked (asks index message stored (List.getElem?_eq_some_iff.1 found).1 next decoded (same ▸ carries))
    | some inputRequired => exact ⟨inputRequired, asked, (posted.retry inputRequired asked).2.2.1⟩

/-- A modern request to read a resource, with a state or without. -/
def readRequest (id : UInt64) (requestState : List (String × Value)) : Value := .object [
  ("id", .number (.posInt id)), ("jsonrpc", .string "2.0"), ("method", .string "resources/read"),
  ("params", .object ([("_meta", .object [("io.modelcontextprotocol/protocolVersion", .string "2026-07-28")])] ++
    requestState ++ [("uri", .string "file:///notes")]))]

def readResult (id : UInt64) (result : List (String × Value)) : Value := .object [
  ("id", .number (.posInt id)), ("jsonrpc", .string "2.0"), ("result", .object result)]

/-- The source asked for input once; the recorded retry carries the state that it returned then. -/
def retriedSession : List StoredMessage :=
  let state : String × Value := ("requestState", .string "recorded")
  [⟨0, 0, .clientToServer, readRequest 1 [], 0⟩,
    ⟨1, 1, .serverToClient, readResult 1 [state, ("resultType", .string "input_required")], 0⟩,
    ⟨2, 2, .clientToServer, readRequest 2 [state], 0⟩,
    ⟨3, 3, .serverToClient, readResult 2 [], 0⟩].map (StoredMessage.ofMessage Compact.codec)

def retriedSettings : HttpReplaySettings where
  codec := Compact.codec
  fromSlice := fun bytes => if bytes = [123, 125] then some (.object []) else none
  fromUtf8Lossy := fun _ => ""
  library := { headerName := some, headerValue := fun _ => true, base64 := id }
  extraHeaders := .empty
  sourceMessages := retriedSession
  allowTool := []
  denyTool := []

/-- The target answers at once, with an empty object. -/
def finalOutcome : TargetOutcome where
  response := .answered ⟨200, "200 OK", none, some "application/json", [[123, 125]], false⟩
  listening := .ok ()
  checked := .ok ()
  waited := .ok ()

/-- A target that asks for no input is sent the recorded state. -/
theorem recorded_state_posted :
    ¬ ∀ (settings : HttpReplaySettings) (outcomes : List TargetOutcome),
      Healthy settings.codec settings.sourceMessages 0 →
      let posts := (Drive.run settings outcomes).posts
      ∀ (index : Nat) post, posts[index]? = some post → carriesState post.body = true →
        LiveState settings posts outcomes index post.body := by
  intro live
  let outcomes := [finalOutcome, finalOutcome]
  have bodies : (Drive.run retriedSettings outcomes).posts.map HttpPost.body =
      [readRequest 1 [], readRequest 2 [("requestState", .string "recorded")]] := by decide +kernel
  have found (index : Nat) (body : Value)
      (known : [readRequest 1 [], readRequest 2 [("requestState", .string "recorded")]][index]? = some body) :
      ∃ post, (Drive.run retriedSettings outcomes).posts[index]? = some post ∧ post.body = body := by
    rw [← bodies, List.getElem?_map] at known
    exact Option.map_eq_some_iff.1 known
  obtain ⟨first, firstPosted, firstBody⟩ := found 0 _ rfl
  obtain ⟨second, secondPosted, secondBody⟩ := found 1 _ rfl
  have unasked : answeredDemand retriedSettings (Drive.run retriedSettings outcomes).posts outcomes 1 = none := by
    rw [answeredDemand, demandAt, firstPosted]
    change (if isModernSubscriptionListen first.body then none
      else (finalOutcome.response.inputRequired retriedSettings first.body).toOption.join) = none
    rw [firstBody]
    decide +kernel
  obtain ⟨inputRequired, asked, -⟩ := live retriedSettings outcomes (by decide +kernel) 1 second secondPosted
    (by rw [secondBody]; decide +kernel)
  simp [unasked] at asked

end McpTracer.Proxy.HttpReplay
