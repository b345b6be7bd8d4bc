import McpTracer.Proxy.PlannedReplay

/-! The pace of a replay.

At the recorded pace, a round of the loop takes the time since the message before it, and ahead of a
recorded cancellation the time since its request. A cancellation stands right behind its request. So a
run takes the times between one driven message and the next, in their order and as far as it comes, and
a run to the end takes them all.
-/

set_option autoImplicit false

namespace McpTracer.Proxy.Replay
open McpTracer.Foundation McpTracer.Json McpTracer.Model McpTracer.Protocol McpTracer.Storage

/-! ## One round -/

/-- What a round leaves for the next one, with the cancellation it sent. -/
structure Round where
  cancelled : Option StoredMessage
  buf : List UInt8
  state : ReplayState

section
variable (around : ReplaySurroundings) (plan : ReplayPlan)

/-- The body of the loop, for a message that is still to be sent. -/
def driveRound (message : StoredMessage) (buf : List UInt8) (state : ReplayState) : Except String Round := do
  let value ← require (around.codec.fromStr message.payload) s!"source message seq {message.seq} is not valid JSON"
  let sent := state.message around .clientToServer value (around.codec.toString value).utf8ByteSize
  let state ← state.sendRecorded around (.source message value) value
  match sent.kind, sent.idJson around.codec with
  | .request, some rpcId =>
    match plan.cancellations.lookup message.seq with
    | some cancel =>
      let (buf, state, _) ← waitForCancellation around plan message cancel rpcId buf state
      let cancelValue ← require (around.codec.fromStr cancel.payload)
        s!"cancellation message seq {cancel.seq} is not valid JSON"
      let state ← state.sendRecorded around (.source cancel cancelValue) cancelValue
      return ⟨some cancel, buf, state⟩
    | none =>
      let (buf, state, _) ← waitForResponse around plan.lookaside plan.strict rpcId buf state
      return ⟨none, buf, state⟩
  | _, _ => return ⟨none, buf, state⟩

/-- The numbers that are not to be sent again, after a round. -/
def Round.sentCancellations (round : Round) (before : List Nat) : List Nat :=
  (round.cancelled.map StoredMessage.seq).toList ++ before

theorem drive_cons (message : StoredMessage) (rest : List StoredMessage) (sentCancellations : List Nat)
    (buf : List UInt8) (state : ReplayState) :
    drive around plan (message :: rest) sentCancellations buf state =
      if sentCancellations.contains message.seq then drive around plan rest sentCancellations buf state
      else driveRound around plan message buf state >>= fun round =>
        drive around plan rest (round.sentCancellations sentCancellations) round.buf round.state := by
  rw [drive, driveRound]
  split
  · rfl
  · simp only [bind_assoc]
    refine bind_congr fun value => bind_congr fun after => ?_
    generalize (state.message around .clientToServer value _).kind = kind
    generalize (state.message around .clientToServer value _).idJson around.codec = named
    cases kind with
    | request =>
      cases named with
      | none => rfl
      | some rpcId => cases plan.cancellations.lookup message.seq <;> simp only [bind_assoc, pure_bind] <;> rfl
    | _ => rfl

/-- The time that is taken ahead of a cancellation, once the request has been sent. -/
def cancellationDelta (message : StoredMessage) (state : ReplayState) : Option Int := do
  let value ← around.codec.fromStr message.payload
  let sent := state.message around .clientToServer value (around.codec.toString value).utf8ByteSize
  let _ ← (state.sendRecorded around (.source message value) value).toOption
  guard (sent.kind = .request)
  let _ ← sent.idJson around.codec
  let cancel ← plan.cancellations.lookup message.seq
  return cancel.tsNs - message.tsNs

/-- The subtractions of a round, at the recorded pace. -/
def roundDeltas (previous : Option Int) (message : StoredMessage) (state : ReplayState) : List Int :=
  if plan.realtime then
    (previous.map fun time => message.tsNs - time).toList ++ (cancellationDelta around plan message state).toList
  else []

/-- The subtractions of the loop, up to its end or to the failure of a round. -/
def driveDeltas : List StoredMessage → Option Int → List Nat → List UInt8 → ReplayState → List Int
  | [], _, _, _, _ => []
  | message :: rest, previous, sentCancellations, buf, state =>
    if sentCancellations.contains message.seq then driveDeltas rest previous sentCancellations buf state
    else roundDeltas around plan previous message state ++
      match driveRound around plan message buf state with
      | .error _ => []
      | .ok round => driveDeltas rest (some (round.cancelled.getD message).tsNs)
          (round.sentCancellations sentCancellations) round.buf round.state

end

/-- The subtractions of a replay. -/
def runDeltas (around : ReplaySurroundings) (args : ReplayArgs) (source : List StoredMessage) : List Int :=
  let allowed := allowedMessages source args.allowTool args.denyTool
  match linkCancellations allowed (cancellationNotifications around.codec source) with
  | .error _ => []
  | .ok cancellations =>
    driveDeltas around ⟨args.realtime, args.strictServerRequests, cancellations,
      serverInitiatedResponses around.codec source⟩ (allowed.filter (isReplayed cancellations)) none [] [] .start

/-- The times between one message and the next. -/
def gapsFrom : Option Int → List StoredMessage → List Int
  | _, [] => []
  | previous, message :: rest =>
    (previous.map fun time => message.tsNs - time).toList ++ gapsFrom (some message.tsNs) rest

/-- The times between messages are those of each and the next. -/
theorem forall_gapsFrom_iff {P : Int → Prop} {messages : List StoredMessage} :
    (∀ gap ∈ gapsFrom none messages, P gap) ↔
      messages.IsChain fun earlier later => P (later.tsNs - earlier.tsNs) := by
  cases messages with
  | nil => simp [gapsFrom]
  | cons message rest =>
    rw [gapsFrom, Option.map_none, Option.toList_none, List.nil_append]
    induction rest generalizing message with
    | nil => simp [gapsFrom]
    | cons next others ih => simp [gapsFrom, List.isChain_cons_cons, ih]

section Round
variable {around : ReplaySurroundings} {plan : ReplayPlan} {message : StoredMessage} {buf : List UInt8}
  {state : ReplayState}

theorem cancellationDelta_linked {delta : Int} (computed : cancellationDelta around plan message state = some delta) :
    ∃ cancel, plan.cancellations.lookup message.seq = some cancel ∧ delta = cancel.tsNs - message.tsNs := by
  simp only [cancellationDelta, Option.bind_eq_bind, Option.bind_eq_some_iff, Option.pure_def,
    Option.some.injEq] at computed
  obtain ⟨_, _, _, _, _, _, _, _, cancel, found, rfl⟩ := computed
  exact ⟨cancel, found, rfl⟩

/-- A round has taken the time of its cancellation exactly when it sends one. -/
theorem driveRound_ok {round : Round} (done : driveRound around plan message buf state = .ok round) :
    cancellationDelta around plan message state = round.cancelled.map (fun cancel => cancel.tsNs - message.tsNs) ∧
      ∀ cancel, round.cancelled = some cancel → plan.cancellations.lookup message.seq = some cancel := by
  unfold driveRound at done
  obtain ⟨value, parsed, done⟩ := bind_eq_ok_iff.1 done
  obtain ⟨after, wrote, done⟩ := bind_eq_ok_iff.1 done
  simp only [cancellationDelta, require_eq_ok_iff.1 parsed, Option.bind_eq_bind, Option.bind_some, wrote,
    Except.toOption]
  generalize (state.message around .clientToServer value _).kind = kind at done ⊢
  generalize (state.message around .clientToServer value _).idJson around.codec = named at done ⊢
  cases kind with
  | request =>
    cases named with
    | none =>
      cases done
      exact ⟨rfl, nofun⟩
    | some rpcId =>
      cases linked : plan.cancellations.lookup message.seq with
      | none =>
        simp only [linked] at done
        obtain ⟨_, _, same⟩ := bind_eq_ok_iff.1 done
        cases same
        exact ⟨rfl, nofun⟩
      | some cancel =>
        simp only [linked] at done
        obtain ⟨_, _, done⟩ := bind_eq_ok_iff.1 done
        obtain ⟨_, _, done⟩ := bind_eq_ok_iff.1 done
        obtain ⟨_, _, same⟩ := bind_eq_ok_iff.1 done
        cases same
        exact ⟨rfl, fun _ same => same⟩
  | _ =>
    cases done
    exact ⟨rfl, nofun⟩

end Round

/-! ## The whole loop -/

/-- The cancellation of a message is the one behind it. -/
def Behind (cancellations : List (Nat × StoredMessage)) : List StoredMessage → Prop
  | [] => True
  | message :: rest =>
    (∀ cancel, cancellations.lookup message.seq = some cancel → ∃ others, rest = cancel :: others) ∧
      Behind cancellations rest

theorem behind_of_adjacent {cancellations : List (Nat × StoredMessage)} {driven : List StoredMessage}
    (adjacent : Adjacent cancellations driven)
    (named : ∀ request cancel, cancellations.lookup request = some cancel →
      ∀ next ∈ driven, next.seq = cancel.seq → next = cancel) : Behind cancellations driven := by
  induction driven with
  | nil => trivial
  | cons message rest ih =>
    obtain ⟨here, later⟩ := adjacent
    refine ⟨fun cancel found => ?_, ih later fun request cancel found next member =>
      named request cancel found next (List.mem_cons_of_mem _ member)⟩
    obtain ⟨next, others, rfl, same⟩ := here cancel found
    exact ⟨others, by rw [named message.seq cancel found next (by simp) same]⟩

section Loop
variable {around : ReplaySurroundings} {plan : ReplayPlan}

theorem driveDeltas_skip {message : StoredMessage} {rest : List StoredMessage} {sentCancellations : List Nat}
    (skipped : message.seq ∈ sentCancellations) (previous : Option Int) (buf : List UInt8) (state : ReplayState) :
    driveDeltas around plan (message :: rest) previous sentCancellations buf state =
      driveDeltas around plan rest previous sentCancellations buf state := by
  rw [driveDeltas, if_pos (by simpa using skipped)]

/-- The loop takes the times between one message and the next, and all of them if it comes to its end. -/
theorem driveDeltas_gaps (realtime : plan.realtime = true) {driven : List StoredMessage}
    (behind : Behind plan.cancellations driven) (unique : (driven.map StoredMessage.seq).Nodup)
    {sentCancellations : List Nat} (unsent : ∀ message ∈ driven, message.seq ∉ sentCancellations)
    {previous : Option Int} {buf : List UInt8} {state : ReplayState} :
    driveDeltas around plan driven previous sentCancellations buf state <+: gapsFrom previous driven ∧
      ∀ final, drive around plan driven sentCancellations buf state = .ok final →
        driveDeltas around plan driven previous sentCancellations buf state = gapsFrom previous driven := by
  -- A round may send two messages, so the induction is on how many are left.
  induction size : driven.length using Nat.strong_induction_on
    generalizing driven sentCancellations previous buf state with
  | _ _ ih =>
    subst size
    cases driven with
    | nil => exact ⟨List.prefix_refl _, fun _ _ => rfl⟩
    | cons message rest =>
      obtain ⟨fresh, uniqueRest⟩ := List.nodup_cons.1 unique
      obtain ⟨here, later⟩ := behind
      have unsentRest : ∀ other ∈ rest, other.seq ∉ sentCancellations :=
        fun other member => unsent other (List.mem_cons_of_mem _ member)
      have unsentHere : ¬ sentCancellations.contains message.seq = true := by
        simpa using unsent message List.mem_cons_self
      rw [driveDeltas, if_neg unsentHere, roundDeltas, if_pos realtime, gapsFrom, List.append_assoc,
        List.prefix_append_right_inj, drive_cons, if_neg unsentHere]
      simp only [List.append_cancel_left_eq]
      cases played : driveRound around plan message buf state with
      | error err =>
        refine ⟨?_, fun final ran => by cases ran⟩
        cases computed : cancellationDelta around plan message state with
        | none => exact List.nil_prefix
        | some delta =>
          obtain ⟨cancel, found, rfl⟩ := cancellationDelta_linked computed
          obtain ⟨others, rfl⟩ := here cancel found
          exact List.prefix_append _ _
      | ok round =>
        obtain ⟨computed, linked⟩ := driveRound_ok played
        rw [computed]
        cases sent : round.cancelled with
        | none =>
          have goesOn := @ih rest.length (Nat.lt_succ_self _) rest later uniqueRest sentCancellations unsentRest
            (some message.tsNs) round.buf round.state rfl
          simpa [Round.sentCancellations, sent] using goesOn
        | some cancel =>
          obtain ⟨others, rfl⟩ := here cancel (linked cancel sent)
          obtain ⟨freshNext, uniqueOthers⟩ := List.nodup_cons.1 uniqueRest
          have unsentOthers : ∀ other ∈ others, other.seq ∉ cancel.seq :: sentCancellations := by
            intro other member already
            rcases List.mem_cons.1 already with equal | already
            · exact freshNext (List.mem_map.2 ⟨other, member, equal⟩)
            · exact unsentRest other (List.mem_cons_of_mem _ member) already
          have goesOn := @ih others.length (by simp only [List.length_cons]; omega) others later.2 uniqueOthers
            (cancel.seq :: sentCancellations) unsentOthers (some cancel.tsNs) round.buf round.state rfl
          have skipped : cancel.seq ∈ cancel.seq :: sentCancellations := List.mem_cons_self
          simpa [Round.sentCancellations, sent, driveDeltas_skip skipped, drive_skip skipped, gapsFrom] using goesOn

end Loop

/-! ## A server that says nothing -/

/-- Every write succeeds and nothing is read. -/
structure Quiet (around : ReplaySurroundings) : Prop where
  reads : ∀ wait, around.reads wait = []
  writes : ∀ count, around.writes count = true

section Quiet
variable {around : ReplaySurroundings} {plan : ReplayPlan} (quiet : Quiet around)
include quiet

theorem sendRecorded_quiet (state : ReplayState) (frame : WrittenFrame) (value : Value) :
    ∃ after, state.sendRecorded around frame value = .ok after := by
  rw [ReplayState.sendRecorded, ReplayState.sendFrame, if_pos (quiet.writes _)]
  exact ⟨_, rfl⟩

theorem waitForResponse_quiet (lookaside : Table String String) (strict : Bool) (expected : String)
    (state : ReplayState) :
    ∃ after, waitForResponse around lookaside strict expected [] state = .ok ([], after, false) := by
  have nothing (state : ReplayState) :
      drainServer around lookaside strict expected [] state = .ok ([], state, false) := by
    rw [drainServer]
    split
    case h_1 parsed => cases parsed
    case h_2 => rfl
    case h_3 parsed => cases parsed
  rw [waitForResponse, quiet.reads, waitReads, nothing]
  exact ⟨_, rfl⟩

theorem waitForCancellation_quiet (plan : ReplayPlan) (message cancel : StoredMessage) (expected : String)
    (state : ReplayState) : ∃ after, waitForCancellation around plan message cancel expected [] state = .ok ([], after, false) := by
  unfold waitForCancellation
  split
  case isTrue => exact waitForResponse_quiet quiet _ _ _ _
  case isFalse => exact ⟨_, rfl⟩

/-- A round fails only on what cannot be read. -/
theorem driveRound_quiet {message : StoredMessage} (readable : (around.codec.fromStr message.payload).isSome = true)
    (linked : ∀ pair ∈ plan.cancellations, (around.codec.fromStr pair.2.payload).isSome = true) (state : ReplayState) :
    ∃ round, driveRound around plan message [] state = .ok round ∧ round.buf = [] := by
  obtain ⟨value, parsed⟩ := Option.isSome_iff_exists.1 readable
  obtain ⟨after, wrote⟩ := sendRecorded_quiet quiet state (.source message value) value
  unfold driveRound
  rw [parsed]
  simp only [require_some, bind, Except.bind, wrote]
  generalize (state.message around .clientToServer value _).kind = kind
  generalize (state.message around .clientToServer value _).idJson around.codec = named
  cases kind with
  | request =>
    cases named with
    | none => exact ⟨⟨none, [], after⟩, rfl, rfl⟩
    | some rpcId =>
      cases found : plan.cancellations.lookup message.seq with
      | none =>
        obtain ⟨waited, wait⟩ := waitForResponse_quiet quiet plan.lookaside plan.strict rpcId after
        simp only [wait]
        exact ⟨⟨none, [], waited⟩, rfl, rfl⟩
      | some cancel =>
        obtain ⟨waited, wait⟩ := waitForCancellation_quiet quiet plan message cancel rpcId after
        obtain ⟨cancelValue, read⟩ := Option.isSome_iff_exists.1 (linked _ (mem_of_lookup found))
        obtain ⟨last, sent⟩ := sendRecorded_quiet quiet waited (.source cancel cancelValue) cancelValue
        simp only [wait, read, require_some, sent]
        exact ⟨⟨some cancel, [], last⟩, rfl, rfl⟩
  | _ => exact ⟨⟨none, [], after⟩, rfl, rfl⟩

theorem drive_quiet {driven : List StoredMessage}
    (readable : ∀ message ∈ driven, (around.codec.fromStr message.payload).isSome = true)
    (linked : ∀ pair ∈ plan.cancellations, (around.codec.fromStr pair.2.payload).isSome = true)
    (sentCancellations : List Nat) (state : ReplayState) :
    ∃ final, drive around plan driven sentCancellations [] state = .ok final := by
  induction driven generalizing sentCancellations state with
  | nil => exact ⟨state, rfl⟩
  | cons message rest ih =>
    obtain ⟨here, later⟩ := List.forall_mem_cons.1 readable
    rw [drive_cons]
    split
    case isTrue => exact ih later _ _
    case isFalse =>
      obtain ⟨round, played, empty⟩ := driveRound_quiet quiet here linked state
      obtain ⟨final, ran⟩ := ih later (round.sentCancellations sentCancellations) round.state
      rw [← empty] at ran
      exact ⟨final, bind_eq_ok_iff.2 ⟨round, played, ran⟩⟩

end Quiet

/-! ## A replay -/

/-- The messages that a replay under these filters drives, in their order. -/
def replayedMessages (codec : Codec) (source : List StoredMessage) (allowTool denyTool : List String) :
    List StoredMessage :=
  let allowed := allowedMessages source allowTool denyTool
  match linkCancellations allowed (cancellationNotifications codec source) with
  | .error _ => []
  | .ok cancellations => allowed.filter (isReplayed cancellations)

section Run
variable {around : ReplaySurroundings} {args : ReplayArgs} {source : List StoredMessage}

theorem driveDeltas_hurried {plan : ReplayPlan} (hurried : plan.realtime = false) (driven : List StoredMessage)
    (previous : Option Int) (sentCancellations : List Nat) (buf : List UInt8) (state : ReplayState) :
    driveDeltas around plan driven previous sentCancellations buf state = [] := by
  induction driven generalizing previous sentCancellations buf state with
  | nil => rfl
  | cons message rest ih =>
    rw [driveDeltas]
    split
    · exact ih _ _ _ _
    · rw [roundDeltas, if_neg (by simp [hurried]), List.nil_append]
      split
      · rfl
      · exact ih _ _ _ _

theorem driven_nodup (unique : (source.map StoredMessage.seq).Nodup) (allowTool denyTool : List String)
    (keep : StoredMessage → Bool) :
    (((allowedMessages source allowTool denyTool).filter keep).map StoredMessage.seq).Nodup :=
  (allowedMessages_nodup unique allowTool denyTool).sublist (List.filter_sublist.map _)

/-- Of linked cancellations, each is the message behind its request. -/
theorem linked_behind (unique : (source.map StoredMessage.seq).Nodup) {allowTool denyTool : List String}
    {codec : Codec} {linked : List (Nat × StoredMessage)}
    (done : linkCancellations (allowedMessages source allowTool denyTool) (cancellationNotifications codec source) =
      .ok linked) : Behind linked ((allowedMessages source allowTool denyTool).filter (isReplayed linked)) := by
  have adjacent := (linked_adjacent (allowedMessages_nodup unique _ _) done).filter
    fun message cancel found next _ same => isReplayed_of_linked found same
  refine behind_of_adjacent adjacent ?_
  intro request cancel found next member same
  have recorded : cancel ∈ source :=
    mem_of_mem_cancellationNotifications ((linkCancellations_ok done).1 _ (mem_of_lookup found)).1
  have driven : next ∈ source := (mem_allowedMessages_iff.1 (List.mem_filter.1 member).1).1
  exact List.inj_on_of_nodup_map unique driven recorded same

/-- A replay takes the times between the messages it drives, as far as it comes. -/
theorem runDeltas_within (unique : (source.map StoredMessage.seq).Nodup) :
    runDeltas around args source <+:
      gapsFrom none (replayedMessages around.codec source args.allowTool args.denyTool) := by
  unfold runDeltas replayedMessages
  dsimp only
  cases done : linkCancellations (allowedMessages source args.allowTool args.denyTool)
      (cancellationNotifications around.codec source) with
  | error err => exact List.nil_prefix
  | ok linked =>
    dsimp only
    generalize same : ReplayPlan.mk args.realtime args.strictServerRequests linked
      (serverInitiatedResponses around.codec source) = plan
    cases pace : plan.realtime with
    | false =>
      rw [driveDeltas_hurried pace]
      exact List.nil_prefix
    | true =>
      have linkedSame : plan.cancellations = linked := same ▸ rfl
      have behind : Behind plan.cancellations
          ((allowedMessages source args.allowTool args.denyTool).filter (isReplayed linked)) := by
        rw [linkedSame]
        exact linked_behind unique done
      exact (driveDeltas_gaps pace behind (driven_nodup unique _ _ _) (by simp)).1

/-- At the recorded pace, a server that says nothing is sent every message at its time. -/
theorem runDeltas_quiet (unique : (source.map StoredMessage.seq).Nodup) (quiet : Quiet around)
    (realtime : args.realtime = true)
    (readable : ∀ message ∈ source, (around.codec.fromStr message.payload).isSome = true) :
    runDeltas around args source =
      gapsFrom none (replayedMessages around.codec source args.allowTool args.denyTool) := by
  unfold runDeltas replayedMessages
  dsimp only
  cases done : linkCancellations (allowedMessages source args.allowTool args.denyTool)
      (cancellationNotifications around.codec source) with
  | error err => rfl
  | ok linked =>
    dsimp only
    have sendable : ∀ message ∈ (allowedMessages source args.allowTool args.denyTool).filter (isReplayed linked),
        (around.codec.fromStr message.payload).isSome = true := fun message member =>
      readable message (mem_allowedMessages_iff.1 (List.mem_filter.1 member).1).1
    have cancellable : ∀ pair ∈ linked, (around.codec.fromStr pair.2.payload).isSome = true := fun pair member =>
      readable pair.2 (mem_of_mem_cancellationNotifications ((linkCancellations_ok done).1 pair member).1)
    generalize same : ReplayPlan.mk args.realtime args.strictServerRequests linked
      (serverInitiatedResponses around.codec source) = plan
    have linkedSame : plan.cancellations = linked := same ▸ rfl
    have pace : plan.realtime = true := same ▸ realtime
    obtain ⟨final, ran⟩ := drive_quiet quiet sendable (linkedSame ▸ cancellable) [] .start
    have behind : Behind plan.cancellations
        ((allowedMessages source args.allowTool args.denyTool).filter (isReplayed linked)) := by
      rw [linkedSame]
      exact linked_behind unique done
    exact (driveDeltas_gaps pace behind (driven_nodup unique _ _ _) (by simp)).2 final ran

end Run

end McpTracer.Proxy.Replay
