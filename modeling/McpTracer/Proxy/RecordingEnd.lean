import McpTracer.Foundation.Milestones
import McpTracer.Proxy.StopRequests

/-! A recording comes to its end.

The recorder never goes back to an earlier stage. Two requests to stop are enough to take it to the end without a
wait, and so is the time that it grants a server after the client has left, whatever happens in between.
-/

set_option autoImplicit false

namespace McpTracer.Proxy
open McpTracer.Foundation

namespace Recorder

variable (graces : RecordGraces)

/-- What a step does to a recording: its surroundings change, or it goes on to a later stage. -/
inductive Moves (before after : Recorder) : Prop where
  | grows (grown : Grown before after)
  | drains (result : Except String Unit) (stage : after.stage = .draining result)
      (forwarding : before.stage = .forwarding) (stop : after.stop = before.stop)
  | advances (place next : Nat) (stage : before.stage.order = some place) (later : after.stage.order = some next)
      (further : place < next) (past : 2 ≤ next)

theorem Grown.refl (recorder : Recorder) : Grown recorder recorder :=
  ⟨rfl, rfl, rfl, rfl, Nat.le_refl _, rfl, Nat.le_refl _, fun _ => rfl, fun _ => id, fun _ => id, fun _ => id⟩

section Moves
variable {graces} {recorder : Recorder}

theorem moves_onStop : Moves recorder recorder.onStop := by
  unfold onStop
  cases unobserved : recorder.stop.nextStopRequest with
  | none =>
    simp only [cut, unobserved]
    split <;> exact .grows (.refl _)
  | some next =>
    simp only [cut, unobserved, Option.isSome_some, if_true]
    split
    · rename_i stage
      exact .advances 0 2 (by rw [stage]; rfl) rfl (by decide) (by decide)
    · rename_i result stage
      exact .advances 1 2 (by rw [stage]; rfl) rfl (by decide) (by decide)
    · rename_i pumps storage stage
      exact .advances 5 6 (by rw [stage]; rfl) rfl (by decide) (by decide)
    · exact .grows (.refl _)

theorem moves_perform {place : Nat} (recording : recorder.stage.order = some place) (step : RecordStep) :
    Moves recorder (recorder.perform graces step) := by
  have same : Moves recorder recorder := .grows (.refl _)
  cases step with
  | refuse error =>
    unfold perform
    dsimp only
    split
    · rename_i stage
      rw [stage] at recording
      cases recording
    · exact same
  | prepare setup =>
    unfold perform
    dsimp only
    split
    · rename_i stage
      rw [stage] at recording
      cases recording
    · rename_i error stage
      rw [stage] at recording
      cases recording
    · exact same
  | signal =>
    rw [perform]
    split_ifs with ended
    · exact same
    · exact .grows (grown_signal (by simpa using ended))
  | unlisten =>
    exact .grows ⟨rfl, rfl, rfl, rfl, Nat.le_refl _, rfl, Nat.le_refl _, fun _ => rfl, fun _ => id, fun _ => id,
      fun _ => id⟩
  | tick =>
    exact .grows ⟨rfl, rfl, rfl, rfl, Nat.le_succ _, rfl, Nat.le_refl _, fun _ => rfl, fun _ => id, fun _ => id,
      fun _ => id⟩
  | clientReturns result =>
    exact .grows ⟨rfl, rfl, rfl, rfl, Nat.le_refl _, rfl, Nat.le_refl _, fun _ => rfl,
      fun _ present => or_of_some present _, fun _ => id, fun _ => id⟩
  | serverReturns result =>
    exact .grows ⟨rfl, rfl, rfl, rfl, Nat.le_refl _, rfl, Nat.le_refl _, fun _ => rfl, fun _ => id,
      fun _ present => or_of_some present _, fun _ => id⟩
  | serverExits status =>
    exact .grows ⟨rfl, rfl, rfl, rfl, Nat.le_refl _, rfl, Nat.le_refl _, fun _ => rfl, fun _ => id, fun _ => id,
      fun _ present => or_of_some present _⟩
  | client =>
    unfold perform
    dsimp only
    split
    · rename_i result stage _
      exact .drains result rfl stage rfl
    · exact same
  | server =>
    rw [perform]
    unfold onServer
    split
    · rename_i result stage _
      exact .advances 0 2 (by rw [stage]; rfl) rfl (by decide) (by decide)
    · rename_i result drained stage _
      exact .advances 1 2 (by rw [stage]; rfl) rfl (by decide) (by decide)
    · exact same
  | exit =>
    unfold perform
    dsimp only
    split
    · rename_i pumps storage status stage _
      exact .advances 5 7 (by rw [stage]; rfl) rfl (by decide) (by decide)
    · exact same
  | stop => exact moves_onStop
  | elapse =>
    rw [perform]
    unfold onElapse
    split
    · rename_i error stage
      rw [stage] at recording
      cases recording
    · rename_i result stage
      split_ifs
      · exact .advances 1 2 (by rw [stage]; rfl) rfl (by decide) (by decide)
      · exact same
    · rename_i pumps storage stage
      split_ifs
      · exact .advances 5 6 (by rw [stage]; rfl) rfl (by decide) (by decide)
      · exact same
    · exact same
  | judge =>
    rw [perform]
    split
    · rename_i pumps stage
      split_ifs
      · exact .advances 2 3 (by rw [stage]; rfl) rfl (by decide) (by decide)
      · exact .advances 2 4 (by rw [stage]; rfl) rfl (by decide) (by decide)
    · exact same
  | acknowledge =>
    rw [perform]
    split
    · rename_i pumps stage
      exact .advances 3 4 (by rw [stage]; rfl) rfl (by decide) (by decide)
    · exact same
  | finish storage =>
    rw [perform]
    split
    · rename_i pumps stage
      exact .advances 4 5 (by rw [stage]; rfl) rfl (by decide) (by decide)
    · exact same
  | kill outcome =>
    rw [perform]
    unfold onKill
    split
    · rename_i pumps storage stage
      exact .advances 6 7 (by rw [stage]; rfl) rfl (by decide) (by decide)
    · rename_i pumps storage error stage
      exact .advances 6 7 (by rw [stage]; rfl) rfl (by decide) (by decide)
    · rename_i failure stage
      rw [stage] at recording
      cases recording
    · rename_i failure error stage
      rw [stage] at recording
      cases recording
    · exact same
  | conclude =>
    rw [perform]
    unfold onConclude
    split
    · rename_i pumps storage process stage
      split <;> exact .advances 7 8 (by rw [stage]; rfl) rfl (by decide) (by decide)
    · exact same

theorem Moves.order_isSome {after : Recorder} (moves : Moves recorder after)
    (recording : recorder.stage.order.isSome = true) : after.stage.order.isSome = true := by
  cases moves with
  | grows grown => rwa [grown.stage]
  | drains result stage => rw [stage]; rfl
  | advances place next stage later => rw [later]; rfl

end Moves

/-! ## Whoever asks twice does not wait -/

def unobserved (recorder : Recorder) : Nat := if recorder.stop.observed < recorder.stop.requests then 1 else 0

/-- How much of a stop the recorder has carried out. -/
def halted (recorder : Recorder) : Nat :=
  match recorder.stage with
  | .starting | .cleaning _ | .failed _ => 0
  | .forwarding | .draining _ => recorder.unobserved
  | .judging _ => 2
  | .acknowledging _ => 3
  | .finalizing _ => 4
  | .reaping _ _ => 5 + recorder.unobserved
  | .killing _ _ => 7
  | .concluding _ _ _ => 8
  | .ended _ _ _ _ => 9

def stopPlan (storage outcome : Except String Unit) : List RecordStep :=
  [.signal, .stop, .judge, .acknowledge, .finish storage, .signal, .stop, .kill outcome, .conclude]

/-- There is a session, and the requests arrive. -/
structure Attended (recorder : Recorder) : Prop where
  sound : Sound graces recorder
  recording : recorder.stage.order.isSome = true
  listening : recorder.stop.listening = true

theorem unobserved_le (recorder : Recorder) : recorder.unobserved ≤ 1 := by
  unfold unobserved
  split_ifs <;> decide

theorem halted_bounds {recorder : Recorder} {place : Nat} (stage : recorder.stage.order = some place) :
    (2 ≤ place → place + (if 6 ≤ place then 1 else 0) ≤ recorder.halted) ∧
      recorder.halted ≤ (if place ≤ 1 then 1 else if place ≤ 4 then place else place + 1) := by
  have small := unobserved_le recorder
  unfold halted
  cases found : recorder.stage <;> rw [found] at stage <;> cases stage <;> refine ⟨fun _ => ?_, ?_⟩ <;>
    simp at * <;> omega

theorem Moves.halted_le {before after : Recorder} (moves : Moves before after) : before.halted ≤ after.halted := by
  cases moves with
  | grows grown =>
    have more : before.unobserved ≤ after.unobserved := by
      have requests := grown.requests
      unfold unobserved
      rw [grown.observed]
      split_ifs <;> omega
    unfold halted
    rw [grown.stage]
    cases before.stage <;> first | exact more | exact Nat.add_le_add_left more _ | exact Nat.le_refl _
  | drains result stage forwarding stop =>
    unfold halted unobserved
    rw [stage, forwarding, stop]
  | advances place next stage later further past =>
    have above := (halted_bounds later).1 past
    have below := (halted_bounds stage).2
    split_ifs at above below <;> omega

theorem listening_forward (stop : StopRequests) : stop.forwardStopSignal.listening = stop.listening := by
  unfold StopRequests.forwardStopSignal
  split_ifs <;> rfl

theorem listening_cut (recorder : Recorder) (wait : RecordWait) (stage : RecordStage) :
    (recorder.cut wait stage).stop.listening = recorder.stop.listening := by
  unfold cut StopRequests.nextStopRequest
  split_ifs <;> rfl

theorem listening_perform {recorder : Recorder} {step : RecordStep} (other : step ≠ .unlisten) :
    (recorder.perform graces step).stop.listening = recorder.stop.listening := by
  cases step with
  | unlisten => exact absurd rfl other
  | signal =>
    rw [perform]
    split_ifs
    · rfl
    · exact listening_forward _
  | stop =>
    rw [perform]
    unfold onStop
    split
    · exact listening_cut _ _ _
    · exact listening_cut _ _ _
    · split_ifs
      · exact listening_cut _ _ _
      · rfl
    · rfl
  | tick | clientReturns | serverReturns | serverExits => rfl
  | refuse | prepare | client | server | exit | elapse | judge | acknowledge | finish | kill | conclude =>
    simp only [perform, onServer, onElapse, onKill, onConclude]
    repeat' split
    all_goals rfl

/-- No step takes a stop back. -/
def stopMilestones : Milestones (perform graces) (Attended graces) (· ≠ .unlisten) where
  reached := halted
  stays := fun recorder step other attended => by
    obtain ⟨place, stage⟩ := Option.isSome_iff_exists.1 attended.recording
    exact ⟨sound_perform attended.sound step, (moves_perform stage step).order_isSome attended.recording,
      (listening_perform graces other).trans attended.listening⟩
  keeps := fun recorder step _ attended => by
    obtain ⟨place, stage⟩ := Option.isSome_iff_exists.1 attended.recording
    exact (moves_perform stage step).halted_le

section Stopping
variable {graces} {recorder : Recorder}

theorem unobserved_cases (recorder : Recorder) :
    (recorder.unobserved = 0 ∧ ¬ recorder.stop.observed < recorder.stop.requests) ∨
      (recorder.unobserved = 1 ∧ recorder.stop.nextStopRequest = some recorder.stop.borrowAndUpdate) := by
  unfold unobserved StopRequests.nextStopRequest
  split_ifs with fresh
  · exact .inr ⟨rfl, rfl⟩
  · exact .inl ⟨rfl, fresh⟩

/-- The recorder waits, and can be stopped. -/
theorem waiting_of_halted (attended : recorder.Attended graces) :
    (recorder.halted ≤ 1 → recorder.halted = recorder.unobserved ∧
        (recorder.stage = .forwarding ∨ ∃ result, recorder.stage = .draining result)) ∧
      (recorder.halted = 5 ∨ recorder.halted = 6 → recorder.halted = 5 + recorder.unobserved ∧
        ∃ pumps storage, recorder.stage = .reaping pumps storage) := by
  have recording := attended.recording
  have small := unobserved_le recorder
  unfold halted
  cases stage : recorder.stage <;> rw [stage] at recording <;> cases recording <;> simp <;> omega

theorem halted_signal (attended : recorder.Attended graces) (reached : recorder.halted = 0 ∨ recorder.halted = 5) :
    recorder.halted < (recorder.perform graces .signal).halted := by
  have come := attended.sound.observed.come
  have told (stage : RecordStage) : Recorder.unobserved
      { recorder with stage := stage, stop := recorder.stop.forwardStopSignal } = 1 := by
    unfold unobserved StopRequests.forwardStopSignal
    rw [if_pos attended.listening]
    exact if_pos (Nat.lt_succ_of_le come)
  obtain ⟨early, late⟩ := waiting_of_halted attended
  rw [perform]
  rcases reached with none_ | five
  · obtain ⟨-, stage | ⟨result, stage⟩⟩ := early (by omega) <;> rw [none_, stage] <;> simp [halted,
      RecordStage.isOver, told]
  · obtain ⟨-, pumps, storage, stage⟩ := late (.inl five)
    rw [five, stage]
    simp [halted, RecordStage.isOver, told]

theorem halted_stop (attended : recorder.Attended graces) (reached : recorder.halted = 1 ∨ recorder.halted = 6) :
    recorder.halted < (recorder.perform graces .stop).halted := by
  obtain ⟨early, late⟩ := waiting_of_halted attended
  rw [perform]
  rcases unobserved_cases recorder with ⟨nothing, -⟩ | ⟨-, fresh⟩
  · rcases reached with one | six
    · have := (early (by omega)).1
      omega
    · have := (late (.inr six)).1
      omega
  · rcases reached with one | six
    · obtain ⟨-, stage | ⟨result, stage⟩⟩ := early (by omega) <;> rw [one] <;> simp [onStop, stage, cut, fresh, halted]
    · obtain ⟨-, pumps, storage, stage⟩ := late (.inr six)
      rw [six]
      simp [onStop, stage, cut, fresh, halted, notify]

/-- Where the recorder is when it does not wait. -/
theorem busy_of_halted (recorder : Recorder) :
    (recorder.halted = 2 → ∃ pumps, recorder.stage = .judging pumps) ∧
      (recorder.halted = 3 → ∃ pumps, recorder.stage = .acknowledging pumps) ∧
      (recorder.halted = 4 → ∃ pumps, recorder.stage = .finalizing pumps) ∧
      (recorder.halted = 7 → ∃ pumps storage, recorder.stage = .killing pumps storage) ∧
      (recorder.halted = 8 → ∃ pumps storage process, recorder.stage = .concluding pumps storage process) := by
  have small := unobserved_le recorder
  unfold halted
  cases stage : recorder.stage <;> simp <;> omega

theorem raises_stopPlan (storage outcome : Except String Unit) :
    (stopMilestones graces).Raises (stopPlan storage outcome) 0 := by
  refine ⟨fun recorder attended reached => ?_, fun recorder attended reached => ?_, fun recorder _ reached => ?_,
    fun recorder _ reached => ?_, fun recorder _ reached => ?_, fun recorder attended reached => ?_,
    fun recorder attended reached => ?_, fun recorder _ reached => ?_, fun recorder _ reached => ?_, trivial⟩ <;>
    change recorder.halted = _ at reached <;> change _ < (recorder.perform graces _).halted
  · exact reached ▸ halted_signal attended (.inl reached)
  · exact reached ▸ halted_stop attended (.inl reached)
  · obtain ⟨pumps, stage⟩ := (busy_of_halted recorder).1 reached
    rw [perform, stage]
    dsimp only
    split_ifs <;> simp [halted, enter, notify]
  · obtain ⟨pumps, stage⟩ := (busy_of_halted recorder).2.1 reached
    rw [perform, stage]
    simp [halted]
  · obtain ⟨pumps, stage⟩ := (busy_of_halted recorder).2.2.1 reached
    rw [perform, stage]
    simp only [halted, await]
    omega
  · exact reached ▸ halted_signal attended (.inr reached)
  · exact reached ▸ halted_stop attended (.inr reached)
  · obtain ⟨pumps, storage, stage⟩ := (busy_of_halted recorder).2.2.2.1 reached
    rw [perform]
    cases outcome <;> simp [onKill, stage, halted, enter]
  · obtain ⟨pumps, storage, process, stage⟩ := (busy_of_halted recorder).2.2.2.2 reached
    rw [perform]
    simp only [onConclude, stage]
    split <;> simp [halted, enter, notify]

end Stopping

theorem foldl_run (before more : List RecordStep) :
    more.foldl (perform graces) (run graces before) = run graces (before ++ more) := List.foldl_append.symm

/-- However the recorder stands and whatever else happens, it has ended once two requests to stop have come and it has
gone through its stages. -/
theorem two_requests_end {graces : RecordGraces} {before more : List RecordStep} {storage outcome : Except String Unit}
    (recording : (run graces before).stage.order.isSome = true) (listening : (run graces before).stop.listening = true)
    (heard : .unlisten ∉ more) (among : (stopPlan storage outcome).Sublist more) :
    ∃ pumps storage process result, (run graces (before ++ more)).stage = .ended pumps storage process result := by
  have carried : 9 ≤ (run graces (before ++ more)).halted := by
    rw [← foldl_run]
    exact Milestones.carriesOut among (raises_stopPlan storage outcome) (fun step member same => heard (same ▸ member))
      (Attended.mk (sound_run graces before) recording listening) (Nat.zero_le _)
  have small := unobserved_le (run graces (before ++ more))
  unfold halted at carried
  cases stage : (run graces (before ++ more)).stage with
  | ended pumps storage process result => exact ⟨pumps, storage, process, result, rfl⟩
  | starting | cleaning | failed | forwarding | draining | judging | acknowledging | finalizing | reaping | killing |
    concluding =>
    simp only [stage] at carried
    omega

theorem two_requests_end_quiet : ∃ pumps storage process result,
    (run recordGraces ([.prepare (.ok ())] ++ stopPlan (.ok ()) (.ok ()))).stage =
      .ended pumps storage process result :=
  two_requests_end rfl rfl (by simp [stopPlan]) (List.Sublist.refl _)

/-! ## Nobody else is needed -/

/-- How far the recorder has come with a server that says nothing. -/
def outlasted (graces : RecordGraces) (recorder : Recorder) : Nat :=
  match recorder.stage with
  | .starting | .cleaning _ | .failed _ => 0
  | .forwarding => recorder.clientToServer.isSome.toNat
  | .draining _ =>
    if recorder.waited < graces.drain then 2 + recorder.waited
    else 2 + graces.drain + recorder.serverToClient.isSome.toNat
  | .judging _ => 4 + graces.drain
  | .acknowledging _ => 5 + graces.drain
  | .finalizing _ => 6 + graces.drain
  | .reaping _ _ =>
    if recorder.waited < graces.reap then 7 + graces.drain + recorder.waited
    else 7 + graces.drain + graces.reap + recorder.exited.isSome.toNat
  | .killing _ _ => 9 + graces.drain + graces.reap
  | .concluding _ _ _ => 10 + graces.drain + graces.reap
  | .ended _ _ _ _ => 11 + graces.drain + graces.reap

/-- The client leaves, and the recorder waits for the server as long as it does. -/
def outlastPlan (graces : RecordGraces) (left storage outcome : Except String Unit) : List RecordStep :=
  [.clientReturns left, .client] ++ List.replicate graces.drain .tick ++
    [.elapse, .server, .judge, .acknowledge, .finish storage] ++ List.replicate graces.reap .tick ++
    [.elapse, .exit, .kill outcome, .conclude]

section Outlasting
variable {graces} {recorder : Recorder}

theorem outlasted_bounds {place : Nat} (stage : recorder.stage.order = some place) :
    (2 ≤ place → place + 2 + graces.drain + (if 6 ≤ place then 1 + graces.reap else 0) ≤ recorder.outlasted graces) ∧
      recorder.outlasted graces ≤ (if place = 0 then 1 else if place = 1 then 3 + graces.drain
        else if place ≤ 4 then place + 2 + graces.drain else place + 3 + graces.drain + graces.reap) := by
  have client := Bool.toNat_le recorder.clientToServer.isSome
  have server := Bool.toNat_le recorder.serverToClient.isSome
  have exited := Bool.toNat_le recorder.exited.isSome
  unfold outlasted
  cases found : recorder.stage <;> rw [found] at stage <;> cases stage <;> refine ⟨fun _ => ?_, ?_⟩ <;>
    simp <;> first | omega | (split_ifs <;> omega)

theorem isSome_toNat_le {A : Type} {first second : Option A} (kept : ∀ value, first = some value →
    second = some value) : first.isSome.toNat ≤ second.isSome.toNat := by
  cases first with
  | none => exact Nat.zero_le _
  | some value =>
    rw [kept value rfl]

theorem Moves.outlasted_le {before after : Recorder} (moves : Moves before after) :
    before.outlasted graces ≤ after.outlasted graces := by
  cases moves with
  | grows grown =>
    have waited := grown.waited
    have client := isSome_toNat_le grown.client
    have server := isSome_toNat_le grown.server
    have exited := isSome_toNat_le grown.exited
    unfold outlasted
    rw [grown.stage]
    cases before.stage <;> simp only <;> (try split_ifs) <;> omega
  | drains result stage forwarding stop =>
    have client := Bool.toNat_le before.clientToServer.isSome
    unfold outlasted
    rw [forwarding, stage]
    simp only
    split_ifs <;> omega
  | advances place next stage later further past =>
    have above := (@outlasted_bounds graces _ _ later).1 past
    have below := (@outlasted_bounds graces _ _ stage).2
    split_ifs at above below <;> omega

/-- No step takes the recorder back. -/
def outlastMilestones (graces : RecordGraces) :
    Milestones (perform graces) (fun recorder => recorder.stage.order.isSome = true) (fun _ => True) where
  reached := outlasted graces
  stays := fun recorder step _ recording => by
    obtain ⟨place, stage⟩ := Option.isSome_iff_exists.1 recording
    exact (moves_perform stage step).order_isSome recording
  keeps := fun recorder step _ recording => by
    obtain ⟨place, stage⟩ := Option.isSome_iff_exists.1 recording
    exact (moves_perform stage step).outlasted_le

/-- Where the recorder is at each point. -/
theorem place_of_outlasted (graces : RecordGraces) {recorder : Recorder}
    (recording : recorder.stage.order.isSome = true) :
    (recorder.outlasted graces ≤ 1 → recorder.stage = .forwarding ∧
        recorder.outlasted graces = recorder.clientToServer.isSome.toNat) ∧
      (2 ≤ recorder.outlasted graces → recorder.outlasted graces < 4 + graces.drain →
        (∃ result, recorder.stage = .draining result) ∧
          recorder.outlasted graces = if recorder.waited < graces.drain then 2 + recorder.waited
            else 2 + graces.drain + recorder.serverToClient.isSome.toNat) ∧
      (recorder.outlasted graces = 4 + graces.drain → ∃ pumps, recorder.stage = .judging pumps) ∧
      (recorder.outlasted graces = 5 + graces.drain → ∃ pumps, recorder.stage = .acknowledging pumps) ∧
      (recorder.outlasted graces = 6 + graces.drain → ∃ pumps, recorder.stage = .finalizing pumps) ∧
      (7 + graces.drain ≤ recorder.outlasted graces → recorder.outlasted graces < 9 + graces.drain + graces.reap →
        (∃ pumps storage, recorder.stage = .reaping pumps storage) ∧
          recorder.outlasted graces = if recorder.waited < graces.reap then 7 + graces.drain + recorder.waited
            else 7 + graces.drain + graces.reap + recorder.exited.isSome.toNat) ∧
      (recorder.outlasted graces = 9 + graces.drain + graces.reap →
        ∃ pumps storage, recorder.stage = .killing pumps storage) ∧
      (recorder.outlasted graces = 10 + graces.drain + graces.reap →
        ∃ pumps storage process, recorder.stage = .concluding pumps storage process) := by
  have client := Bool.toNat_le recorder.clientToServer.isSome
  have server := Bool.toNat_le recorder.serverToClient.isSome
  have exited := Bool.toNat_le recorder.exited.isSome
  unfold outlasted
  cases stage : recorder.stage <;> rw [stage] at recording <;> cases recording <;> simp <;>
    first | omega | (split_ifs <;> omega)

theorem raises_leaving (left : Except String Unit) :
    (outlastMilestones graces).Raises [.clientReturns left, .client] 0 := by
  refine ⟨fun recorder recording reached => ?_, fun recorder recording reached => ?_, trivial⟩ <;>
    change recorder.outlasted graces = _ at reached <;> change _ < (recorder.perform graces _).outlasted graces <;>
    obtain ⟨stage, waits⟩ := (place_of_outlasted graces recording).1 (by omega) <;>
    rw [reached] at waits
  · rw [perform]
    cases returned : recorder.clientToServer with
    | none => simp [outlasted, stage]
    | some result => simp [returned] at waits
  · obtain ⟨result, returned⟩ := Option.isSome_iff_exists.1 (show recorder.clientToServer.isSome = true by
      cases returned : recorder.clientToServer.isSome with
      | true => rfl
      | false => simp [returned] at waits)
    rw [perform, stage, returned]
    change _ < if 0 < graces.drain then 2 + 0 else 2 + graces.drain + recorder.serverToClient.isSome.toNat
    split_ifs <;> omega

theorem raises_drain : (outlastMilestones graces).Raises (List.replicate graces.drain .tick) 2 := by
  refine Milestones.Raises.replicate fun index below recorder recording reached => ?_
  change recorder.outlasted graces = _ at reached
  change _ < (recorder.perform graces _).outlasted graces
  obtain ⟨⟨result, stage⟩, waits⟩ := (place_of_outlasted graces recording).2.1 (by omega) (by omega)
  rw [perform]
  simp only [outlasted, stage]
  split_ifs at waits ⊢ <;> omega

theorem raises_finalizing (storage : Except String Unit) : (outlastMilestones graces).Raises
    [.elapse, .server, .judge, .acknowledge, .finish storage] (2 + graces.drain) := by
  refine ⟨fun recorder recording reached => ?_, fun recorder recording reached => ?_,
    fun recorder recording reached => ?_, fun recorder recording reached => ?_, fun recorder recording reached => ?_,
    trivial⟩ <;>
    change recorder.outlasted graces = _ at reached <;> change _ < (recorder.perform graces _).outlasted graces
  · obtain ⟨⟨result, stage⟩, waits⟩ := (place_of_outlasted graces recording).2.1 (by omega) (by omega)
    rw [perform]
    cases returned : recorder.serverToClient with
    | none =>
      have late : graces.drain ≤ recorder.waited := by
        split_ifs at waits <;> omega
      simp only [onElapse, stage, returned, late, Option.isNone_none, and_self, if_true, enter, notify, outlasted]
      omega
    | some drained =>
      simp only [returned, Option.isSome_some, Bool.toNat_true] at waits
      split_ifs at waits <;> omega
  · obtain ⟨⟨result, stage⟩, waits⟩ := (place_of_outlasted graces recording).2.1 (by omega) (by omega)
    rw [perform]
    cases returned : recorder.serverToClient with
    | none =>
      simp only [returned, Option.isSome_none, Bool.toNat_false] at waits
      split_ifs at waits <;> omega
    | some drained =>
      simp only [onServer, stage, returned, enter, outlasted]
      omega
  · obtain ⟨pumps, stage⟩ := (place_of_outlasted graces recording).2.2.1 (by omega)
    rw [perform, stage]
    dsimp only
    split_ifs <;> simp only [enter, notify, outlasted] <;> omega
  · obtain ⟨pumps, stage⟩ := (place_of_outlasted graces recording).2.2.2.1 (by omega)
    rw [perform, stage]
    simp only [outlasted]
    omega
  · obtain ⟨pumps, stage⟩ := (place_of_outlasted graces recording).2.2.2.2.1 (by omega)
    rw [perform, stage]
    change _ < if 0 < graces.reap then 7 + graces.drain + 0
      else 7 + graces.drain + graces.reap + recorder.exited.isSome.toNat
    split_ifs <;> omega

theorem raises_reap : (outlastMilestones graces).Raises (List.replicate graces.reap .tick) (7 + graces.drain) := by
  refine Milestones.Raises.replicate fun index below recorder recording reached => ?_
  change recorder.outlasted graces = _ at reached
  change _ < (recorder.perform graces _).outlasted graces
  obtain ⟨⟨pumps, storage, stage⟩, waits⟩ := (place_of_outlasted graces recording).2.2.2.2.2.1 (by omega) (by omega)
  rw [perform]
  simp only [outlasted, stage]
  split_ifs at waits ⊢ <;> omega

theorem raises_ending (outcome : Except String Unit) : (outlastMilestones graces).Raises
    [.elapse, .exit, .kill outcome, .conclude] (7 + graces.drain + graces.reap) := by
  refine ⟨fun recorder recording reached => ?_, fun recorder recording reached => ?_,
    fun recorder recording reached => ?_, fun recorder recording reached => ?_, trivial⟩ <;>
    change recorder.outlasted graces = _ at reached <;> change _ < (recorder.perform graces _).outlasted graces
  · obtain ⟨⟨pumps, storage, stage⟩, waits⟩ := (place_of_outlasted graces recording).2.2.2.2.2.1 (by omega) (by omega)
    rw [perform]
    cases exited : recorder.exited with
    | none =>
      have late : graces.reap ≤ recorder.waited := by
        split_ifs at waits <;> omega
      simp only [onElapse, stage, exited, late, Option.isNone_none, and_self, if_true, enter, notify, outlasted]
      omega
    | some status =>
      simp only [exited, Option.isSome_some, Bool.toNat_true] at waits
      split_ifs at waits <;> omega
  · obtain ⟨⟨pumps, storage, stage⟩, waits⟩ := (place_of_outlasted graces recording).2.2.2.2.2.1 (by omega) (by omega)
    cases exited : recorder.exited with
    | none =>
      simp only [exited, Option.isSome_none, Bool.toNat_false] at waits
      split_ifs at waits <;> omega
    | some status =>
      rw [perform, stage, exited]
      simp only [enter, outlasted]
      omega
  · obtain ⟨pumps, storage, stage⟩ := (place_of_outlasted graces recording).2.2.2.2.2.2.1 (by omega)
    rw [perform]
    cases outcome <;> simp only [onKill, stage, enter, outlasted] <;> omega
  · obtain ⟨pumps, storage, process, stage⟩ := (place_of_outlasted graces recording).2.2.2.2.2.2.2 (by omega)
    rw [perform]
    simp only [onConclude, stage]
    split <;> simp only [enter, notify, outlasted] <;> omega

theorem raises_outlastPlan (left storage outcome : Except String Unit) :
    (outlastMilestones graces).Raises (outlastPlan graces left storage outcome) 0 := by
  unfold outlastPlan
  refine Milestones.Raises.append (Milestones.Raises.append (Milestones.Raises.append (Milestones.Raises.append
    (raises_leaving left) raises_drain) ?_) ?_) ?_
  · have start : 0 + ([.clientReturns left, .client] ++ List.replicate graces.drain .tick : List RecordStep).length =
        2 + graces.drain := by simp; omega
    exact start ▸ raises_finalizing storage
  · have start : 0 + ([.clientReturns left, .client] ++ List.replicate graces.drain .tick ++
        [.elapse, .server, .judge, .acknowledge, .finish storage] : List RecordStep).length = 7 + graces.drain := by
      simp; omega
    exact start ▸ raises_reap
  · have start : 0 + ([.clientReturns left, .client] ++ List.replicate graces.drain .tick ++
        [.elapse, .server, .judge, .acknowledge, .finish storage] ++
        List.replicate graces.reap .tick : List RecordStep).length = 7 + graces.drain + graces.reap := by
      simp; omega
    exact start ▸ raises_ending outcome

end Outlasting

/-- A server that ignores that its client has left does not keep the recorder: nobody has to ask. -/
theorem graces_end {graces : RecordGraces} {before more : List RecordStep} {left storage outcome : Except String Unit}
    (recording : (run graces before).stage.order.isSome = true)
    (among : (outlastPlan graces left storage outcome).Sublist more) :
    ∃ pumps storage process result, (run graces (before ++ more)).stage = .ended pumps storage process result := by
  have length : (outlastPlan graces left storage outcome).length = 11 + graces.drain + graces.reap := by
    simp [outlastPlan]
    omega
  have carried : 11 + graces.drain + graces.reap ≤ (run graces (before ++ more)).outlasted graces := by
    rw [← foldl_run, ← length, ← Nat.zero_add (outlastPlan graces left storage outcome).length]
    exact Milestones.carriesOut among (raises_outlastPlan left storage outcome) (fun _ _ => trivial) recording
      (Nat.zero_le _)
  have client := Bool.toNat_le (run graces (before ++ more)).clientToServer.isSome
  have server := Bool.toNat_le (run graces (before ++ more)).serverToClient.isSome
  have exited := Bool.toNat_le (run graces (before ++ more)).exited.isSome
  unfold outlasted at carried
  cases stage : (run graces (before ++ more)).stage with
  | ended pumps storage process result => exact ⟨pumps, storage, process, result, rfl⟩
  | draining | reaping =>
    simp only [stage] at carried
    split_ifs at carried <;> omega
  | starting | cleaning | failed | forwarding | judging | acknowledging | finalizing | killing | concluding =>
    simp only [stage] at carried
    omega

theorem graces_end_silent : ∃ pumps storage process result,
    (run recordGraces ([.prepare (.ok ())] ++ outlastPlan recordGraces (.ok ()) (.ok ()) (.ok ()))).stage =
      .ended pumps storage process result :=
  graces_end rfl (List.Sublist.refl _)

end Recorder

end McpTracer.Proxy
