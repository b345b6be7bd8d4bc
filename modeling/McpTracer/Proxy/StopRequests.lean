import Mathlib.Data.List.Pairwise
import Mathlib.Order.Basic
import Mathlib.Order.Nat

/-! Stop requests and the end of a recording.

The requests of the operator are counted on a channel that every wait of the recorder observes: while it forwards,
while it drains what the server still says, and while it waits for the server to exit. A request that comes between
two waits is not lost, and one that has cut a wait short does not cut another.
-/

set_option autoImplicit false

namespace McpTracer.Proxy

/-- The requests that have come, and those that the recorder has observed. -/
structure StopRequests where
  requests : Nat
  observed : Nat
  /-- Whether a handler for the signals is installed. -/
  listening : Bool

namespace StopRequests

def listenForStopRequests : StopRequests := ⟨0, 0, true⟩

/-- A signal; without a handler it does not reach the channel. -/
def forwardStopSignal (stop : StopRequests) : StopRequests :=
  if stop.listening then { stop with requests := stop.requests + 1 } else stop

/-- No handler could be installed, or none is left. -/
def unlisten (stop : StopRequests) : StopRequests := { stop with listening := false }

def borrowAndUpdate (stop : StopRequests) : StopRequests := { stop with observed := stop.requests }

/-- What the channel is once the wait for a request is over; none as long as it is not. -/
def nextStopRequest (stop : StopRequests) : Option StopRequests :=
  if stop.observed < stop.requests then some stop.borrowAndUpdate else none

/-- Whether any request has come, observed or not. -/
def stopWasRequested (stop : StopRequests) : Bool := 0 < stop.requests

end StopRequests

structure ExitStatus where
  success : Bool
  text : String
  deriving DecidableEq

structure PumpsOutcome where
  result : Except String Unit
  /-- A stop request has ended the forwarding or cut the drain short. -/
  stopped : Bool

/-- How long the recorder drains and how long it waits for the server. -/
structure RecordGraces where
  drain : Nat
  reap : Nat

/-- In milliseconds. -/
def recordGraces : RecordGraces := ⟨30000, 5000⟩

inductive RecordStage where
  | starting
  /-- The server runs, but the session could not be set up. -/
  | cleaning (error : String)
  | forwarding
  | draining (result : Except String Unit)
  | judging (pumps : PumpsOutcome)
  | acknowledging (pumps : PumpsOutcome)
  | finalizing (pumps : PumpsOutcome)
  | reaping (pumps : PumpsOutcome) (storage : Except String Unit)
  | killing (pumps : PumpsOutcome) (storage : Except String Unit)
  | concluding (pumps : PumpsOutcome) (storage : Except String Unit) (process : Except String (Option ExitStatus))
  /-- There is no session. -/
  | failed (error : String)
  | ended (pumps : PumpsOutcome) (storage : Except String Unit) (process : Except String (Option ExitStatus))
      (result : Except String Unit)

namespace RecordStage

def isOver : RecordStage → Bool
  | .failed _ | .ended _ _ _ _ => true
  | _ => false

/-- The session has been finalized. -/
def finalized : RecordStage → Bool
  | .reaping _ _ | .killing _ _ | .concluding _ _ _ | .ended _ _ _ _ => true
  | _ => false

/-- The stages that lead to an end in order, once there is a session. -/
def order : RecordStage → Option Nat
  | .starting | .cleaning _ | .failed _ => none
  | .forwarding => some 0
  | .draining _ => some 1
  | .judging _ => some 2
  | .acknowledging _ => some 3
  | .finalizing _ => some 4
  | .reaping _ _ => some 5
  | .killing _ _ => some 6
  | .concluding _ _ _ => some 7
  | .ended _ _ _ _ => some 8

end RecordStage

/-- The waits that a stop request cuts short. -/
inductive RecordWait where
  | forwarding
  | draining
  | reaping
  deriving DecidableEq

inductive RecordNotice where
  | outputStaysOpen
  | finalizing
  | overdue
  | requestedAgain
  | cleanupFailed (error : String)
  | ended
  deriving DecidableEq

structure Recorder where
  stage : RecordStage
  stop : StopRequests
  /-- How long the latest wait has taken. -/
  waited : Nat
  clientToServer : Option (Except String Unit)
  serverToClient : Option (Except String Unit)
  /-- What asking for the exit status of the server gives. -/
  exited : Option (Except String ExitStatus)
  notices : List RecordNotice
  killed : Bool
  /-- How often the session was finalized. -/
  closings : Nat
  /-- The waits that were cut short, each with the number of the latest request then. -/
  cuts : List (RecordWait × Nat)
  /-- The number of requests that had come when it was settled whether one had. -/
  judged : Nat

inductive RecordStep where
  /-- Nothing has been started. -/
  | refuse (error : String)
  | prepare (setup : Except String Unit)
  | signal
  | unlisten
  | tick
  | clientReturns (result : Except String Unit)
  | serverReturns (result : Except String Unit)
  | serverExits (status : Except String ExitStatus)
  /-- A wait that is over, by what has ended it. -/
  | client
  | server
  | exit
  | stop
  | elapse
  | judge
  | acknowledge
  | finish (storage : Except String Unit)
  | kill (outcome : Except String Unit)
  | conclude

namespace Recorder

variable (graces : RecordGraces)

def start : Recorder where
  stage := .starting
  stop := .listenForStopRequests
  waited := 0
  clientToServer := none
  serverToClient := none
  exited := none
  notices := []
  killed := false
  closings := 0
  cuts := []
  judged := 0

def enter (recorder : Recorder) (stage : RecordStage) : Recorder := { recorder with stage := stage }

/-- Enter a wait. -/
def await (recorder : Recorder) (stage : RecordStage) : Recorder :=
  { recorder with stage := stage, waited := 0 }

def notify (recorder : Recorder) (notice : RecordNotice) : Recorder :=
  { recorder with notices := recorder.notices ++ [notice] }

/-- A wait goes on in another stage as soon as there is a request that was not observed. -/
def cut (recorder : Recorder) (wait : RecordWait) (stage : RecordStage) : Recorder :=
  match recorder.stop.nextStopRequest with
  | some stop =>
    { recorder with stop := stop, stage := stage, cuts := recorder.cuts ++ [(wait, recorder.stop.requests)] }
  | none => recorder

/-- What is left of a result when another follows it. -/
def both (first second : Except String Unit) : Except String Unit :=
  match first with
  | .ok () => second
  | .error error => .error error

def stopped (recorder : Recorder) (pumps : PumpsOutcome) : Bool := pumps.stopped || recorder.stop.stopWasRequested

/-- What the recorder returns in the end. -/
def verdict (recorder : Recorder) (pumps : PumpsOutcome) (storage : Except String Unit)
    (process : Except String (Option ExitStatus)) : Except String Unit :=
  both pumps.result (both storage
    (match process with
    | .error _ => .error "failed to wait for MCP server process"
    | .ok none => .ok ()
    | .ok (some status) =>
      if !status.success && !recorder.stopped pumps then
        .error s!"MCP server exited unsuccessfully: {status.text}"
      else .ok ()))

/-- What is left of a server that could not be killed. -/
def tryWait (recorder : Recorder) (error : String) : Except String (Option ExitStatus) :=
  match recorder.exited with
  | some status => status.map some
  | none => .error error

def onStop (recorder : Recorder) : Recorder :=
  match recorder.stage with
  | .forwarding => recorder.cut .forwarding (.judging ⟨.ok (), true⟩)
  | .draining result => recorder.cut .draining (.judging ⟨result, true⟩)
  | .reaping pumps storage =>
    if recorder.stop.nextStopRequest.isSome then
      (recorder.cut .reaping (.killing pumps storage)).notify .requestedAgain
    else recorder
  | _ => recorder

/-- A timeout asks first for what it waits for. -/
def onElapse (recorder : Recorder) : Recorder :=
  match recorder.stage with
  | .cleaning error =>
    if graces.reap ≤ recorder.waited then
      (recorder.enter (.failed error)).notify (.cleanupFailed "MCP server startup cleanup timed out")
    else recorder
  | .draining result =>
    if recorder.serverToClient.isNone ∧ graces.drain ≤ recorder.waited then
      (recorder.enter (.judging ⟨result, false⟩)).notify .outputStaysOpen
    else recorder
  | .reaping pumps storage =>
    if recorder.exited.isNone ∧ graces.reap ≤ recorder.waited then
      (recorder.enter (.killing pumps storage)).notify .overdue
    else recorder
  | _ => recorder

def onServer (recorder : Recorder) : Recorder :=
  match recorder.stage, recorder.serverToClient with
  | .forwarding, some result => recorder.enter (.judging ⟨result, false⟩)
  | .draining result, some drained => recorder.enter (.judging ⟨both result drained, false⟩)
  | _, _ => recorder

def onKill (recorder : Recorder) (outcome : Except String Unit) : Recorder :=
  match recorder.stage, outcome with
  | .killing pumps storage, .ok () =>
    { recorder with stage := .concluding pumps storage (.ok none), killed := true }
  | .killing pumps storage, .error error =>
    recorder.enter (.concluding pumps storage (recorder.tryWait error))
  | .cleaning failure, .ok () => { recorder with stage := .failed failure, killed := true }
  | .cleaning failure, .error _ =>
    match recorder.tryWait "failed to terminate MCP server after startup failure" with
    | .ok _ => recorder.enter (.failed failure)
    | .error reason => (recorder.enter (.failed failure)).notify (.cleanupFailed reason)
  | _, _ => recorder

def onConclude (recorder : Recorder) : Recorder :=
  match recorder.stage with
  | .concluding pumps storage process =>
    match recorder.verdict pumps storage process with
    | .ok () => (recorder.enter (.ended pumps storage process (.ok ()))).notify .ended
    | .error error => recorder.enter (.ended pumps storage process (.error error))
  | _ => recorder

/-- A step that is not possible changes nothing. -/
def perform (recorder : Recorder) : RecordStep → Recorder
  | .refuse error =>
    match recorder.stage with
    | .starting => recorder.enter (.failed error)
    | _ => recorder
  | .prepare setup =>
    match recorder.stage, setup with
    | .starting, .ok () => recorder.enter .forwarding
    | .starting, .error error => recorder.await (.cleaning error)
    | _, _ => recorder
  | .signal =>
    if recorder.stage.isOver then recorder else { recorder with stop := recorder.stop.forwardStopSignal }
  | .unlisten => { recorder with stop := recorder.stop.unlisten }
  | .tick => { recorder with waited := recorder.waited + 1 }
  | .clientReturns result => { recorder with clientToServer := recorder.clientToServer.or (some result) }
  | .serverReturns result => { recorder with serverToClient := recorder.serverToClient.or (some result) }
  | .serverExits status => { recorder with exited := recorder.exited.or (some status) }
  | .client =>
    match recorder.stage, recorder.clientToServer with
    | .forwarding, some result => recorder.await (.draining result)
    | _, _ => recorder
  | .server => recorder.onServer
  | .exit =>
    match recorder.stage, recorder.exited with
    | .reaping pumps storage, some status => recorder.enter (.concluding pumps storage (status.map some))
    | _, _ => recorder
  | .stop => recorder.onStop
  | .elapse => recorder.onElapse graces
  | .judge =>
    match recorder.stage with
    | .judging pumps =>
      if recorder.stopped pumps then (recorder.enter (.acknowledging pumps)).notify .finalizing
      else { recorder with stage := .finalizing pumps, judged := recorder.stop.requests }
    | _ => recorder
  | .acknowledge =>
    match recorder.stage with
    | .acknowledging pumps =>
      { recorder with
        stage := .finalizing pumps
        stop := recorder.stop.borrowAndUpdate
        judged := recorder.stop.requests }
    | _ => recorder
  -- The writer closes the session before the wait for the server.
  | .finish storage =>
    match recorder.stage with
    | .finalizing pumps => { recorder.await (.reaping pumps storage) with closings := recorder.closings + 1 }
    | _ => recorder
  | .kill outcome => recorder.onKill outcome
  | .conclude => recorder.onConclude

def run (steps : List RecordStep) : Recorder := steps.foldl (perform graces) start

/-! ## What holds on the way -/

/-- Every request has cut at most one wait, and only a request that came after the judgement has cut the reaping. -/
structure Observed (stop : StopRequests) (cuts : List (RecordWait × Nat)) (judged : Nat) : Prop where
  come : stop.observed ≤ stop.requests
  rising : (cuts.map Prod.snd).Pairwise (· < ·)
  seen : ∀ cut ∈ cuts, 0 < cut.2 ∧ cut.2 ≤ stop.observed
  earlier : judged ≤ stop.observed
  later : ∀ cut ∈ cuts, cut.1 = .reaping → judged < cut.2

/-- No session was finalized, and the wait for the server has not begun. -/
structure Early (recorder : Recorder) : Prop where
  unclosed : recorder.closings = 0
  alive : recorder.killed = false
  unreaped : ∀ cut ∈ recorder.cuts, cut.1 ≠ .reaping

/-- How the forwarding has ended: the result is one of a pump, and a stop was asked for. -/
structure Forwarded (recorder : Recorder) (pumps : PumpsOutcome) : Prop where
  drawn : pumps.result = .ok () ∨ recorder.clientToServer = some pumps.result ∨
    recorder.serverToClient = some pumps.result
  asked : pumps.stopped = true → 0 < recorder.stop.requests

/-- The wait for the server is over, or it was cut short. -/
def Overdue (recorder : Recorder) : Prop :=
  (∃ cut ∈ recorder.cuts, cut.1 = .reaping) ∨ graces.reap ≤ recorder.waited

/-- What is known of the server. -/
structure Reaped (recorder : Recorder) (process : Except String (Option ExitStatus)) : Prop where
  killed : process = .ok none ↔ recorder.killed = true
  overdue : recorder.killed = true → recorder.Overdue graces
  exited : ∀ status, process = .ok (some status) → recorder.exited = some (.ok status)

def Placed (recorder : Recorder) : Prop :=
  match recorder.stage with
  | .starting | .cleaning _ | .forwarding => recorder.Early
  | .draining result => recorder.Early ∧ recorder.clientToServer = some result
  | .judging pumps | .acknowledging pumps | .finalizing pumps => recorder.Early ∧ recorder.Forwarded pumps
  | .reaping pumps _ => recorder.closings = 1 ∧ recorder.killed = false ∧ recorder.Forwarded pumps
  | .killing pumps _ =>
    recorder.closings = 1 ∧ recorder.killed = false ∧ recorder.Forwarded pumps ∧ recorder.Overdue graces
  | .concluding pumps _ process =>
    recorder.closings = 1 ∧ recorder.Forwarded pumps ∧ recorder.Reaped graces process
  | .failed _ => recorder.closings = 0
  | .ended pumps storage process result =>
    recorder.closings = 1 ∧ recorder.Forwarded pumps ∧ recorder.Reaped graces process ∧
      result = recorder.verdict pumps storage process

structure Sound (recorder : Recorder) : Prop where
  observed : Observed recorder.stop recorder.cuts recorder.judged
  placed : recorder.Placed graces

theorem sound_start : Sound graces start where
  observed := ⟨Nat.le_refl _, .nil, by simp [start], Nat.le_refl _, by simp [start]⟩
  placed := ⟨rfl, rfl, by simp [start]⟩

section Steps
variable {graces} {recorder : Recorder}

/-! ### Requests -/

theorem Observed.forwardStopSignal {stop : StopRequests} {cuts : List (RecordWait × Nat)} {judged : Nat}
    (observed : Observed stop cuts judged) : Observed stop.forwardStopSignal cuts judged := by
  unfold StopRequests.forwardStopSignal
  split_ifs
  · exact ⟨Nat.le_succ_of_le observed.come, observed.rising, observed.seen, observed.earlier, observed.later⟩
  · exact observed

theorem Observed.unlisten {stop : StopRequests} {cuts : List (RecordWait × Nat)} {judged : Nat}
    (observed : Observed stop cuts judged) : Observed stop.unlisten cuts judged :=
  ⟨observed.come, observed.rising, observed.seen, observed.earlier, observed.later⟩

/-- Before the wait for the server all requests may be taken as observed. -/
theorem Observed.acknowledge {stop : StopRequests} {cuts : List (RecordWait × Nat)} {judged : Nat}
    (observed : Observed stop cuts judged) (unreaped : ∀ cut ∈ cuts, cut.1 ≠ .reaping) :
    Observed stop.borrowAndUpdate cuts stop.requests where
  come := Nat.le_refl _
  rising := observed.rising
  seen := fun cut member => ⟨(observed.seen cut member).1, (observed.seen cut member).2.trans observed.come⟩
  earlier := Nat.le_refl _
  later := fun cut member reaping => absurd reaping (unreaped cut member)

theorem Observed.cut {stop next : StopRequests} {cuts : List (RecordWait × Nat)} {judged : Nat}
    (observed : Observed stop cuts judged) (unobserved : stop.nextStopRequest = some next) (wait : RecordWait) :
    Observed next (cuts ++ [(wait, stop.requests)]) judged := by
  unfold StopRequests.nextStopRequest at unobserved
  split_ifs at unobserved with fresh
  obtain rfl := Option.some.inj unobserved
  refine ⟨Nat.le_refl _, ?_, ?_, observed.earlier.trans observed.come, ?_⟩
  · rw [List.map_append]
    refine List.pairwise_append.2 ⟨observed.rising, List.pairwise_singleton _ _, fun number member last isLast => ?_⟩
    obtain ⟨cut, before, rfl⟩ := List.mem_map.1 member
    obtain rfl := List.mem_singleton.1 isLast
    exact (observed.seen cut before).2.trans_lt fresh
  · intro cut member
    rcases List.mem_append.1 member with before | last
    · exact ⟨(observed.seen cut before).1, (observed.seen cut before).2.trans observed.come⟩
    · obtain rfl := List.mem_singleton.1 last
      exact ⟨(Nat.zero_le _).trans_lt fresh, Nat.le_refl _⟩
  · intro cut member reaping
    rcases List.mem_append.1 member with before | last
    · exact observed.later cut before reaping
    · obtain rfl := List.mem_singleton.1 last
      exact observed.earlier.trans_lt fresh

/-! ### What happens around the recorder -/

/-- What the surroundings do. -/
structure Grown (before after : Recorder) : Prop where
  stage : after.stage = before.stage
  closings : after.closings = before.closings
  killed : after.killed = before.killed
  cuts : after.cuts = before.cuts
  waited : before.waited ≤ after.waited
  observed : after.stop.observed = before.stop.observed
  requests : before.stop.requests ≤ after.stop.requests
  quiet : before.stage.isOver = true → after.stop.requests = before.stop.requests
  client : ∀ result, before.clientToServer = some result → after.clientToServer = some result
  server : ∀ result, before.serverToClient = some result → after.serverToClient = some result
  exited : ∀ status, before.exited = some status → after.exited = some status

theorem Grown.placed {before after : Recorder} (grown : Grown before after) (placed : before.Placed graces) :
    after.Placed graces := by
  have early (early : before.Early) : after.Early :=
    ⟨grown.closings.trans early.unclosed, grown.killed.trans early.alive, grown.cuts ▸ early.unreaped⟩
  have forwarded (pumps : PumpsOutcome) (forwarded : before.Forwarded pumps) : after.Forwarded pumps :=
    ⟨forwarded.drawn.imp_right (Or.imp (grown.client _) (grown.server _)),
      fun stopped => (forwarded.asked stopped).trans_le grown.requests⟩
  have overdue (overdue : before.Overdue graces) : after.Overdue graces :=
    overdue.imp (fun cut => grown.cuts.symm ▸ cut) fun late => late.trans grown.waited
  have reaped (process : Except String (Option ExitStatus)) (reaped : before.Reaped graces process) :
      after.Reaped graces process :=
    ⟨reaped.killed.trans (by rw [grown.killed]), fun killed => overdue (reaped.overdue (grown.killed ▸ killed)),
      fun status same => grown.exited _ (reaped.exited status same)⟩
  unfold Placed at placed ⊢
  rw [grown.stage]
  cases stage : before.stage with
  | starting | cleaning | forwarding =>
    rw [stage] at placed
    exact early placed
  | draining result =>
    rw [stage] at placed
    exact ⟨early placed.1, grown.client _ placed.2⟩
  | judging pumps | acknowledging pumps | finalizing pumps =>
    rw [stage] at placed
    exact ⟨early placed.1, forwarded _ placed.2⟩
  | reaping pumps storage =>
    rw [stage] at placed
    exact ⟨grown.closings.trans placed.1, grown.killed.trans placed.2.1, forwarded _ placed.2.2⟩
  | killing pumps storage =>
    rw [stage] at placed
    exact ⟨grown.closings.trans placed.1, grown.killed.trans placed.2.1, forwarded _ placed.2.2.1,
      overdue placed.2.2.2⟩
  | concluding pumps storage process =>
    rw [stage] at placed
    exact ⟨grown.closings.trans placed.1, forwarded _ placed.2.1, reaped _ placed.2.2⟩
  | failed error =>
    rw [stage] at placed
    exact grown.closings.trans placed
  | ended pumps storage process result =>
    rw [stage] at placed
    have quiet := grown.quiet (by rw [stage]; rfl)
    refine ⟨grown.closings.trans placed.1, forwarded _ placed.2.1, reaped _ placed.2.2.1, ?_⟩
    rw [placed.2.2.2]
    have same : after.stopped pumps = before.stopped pumps := by
      rw [Recorder.stopped, Recorder.stopped, StopRequests.stopWasRequested, StopRequests.stopWasRequested, quiet]
    unfold verdict
    rw [same]

theorem Sound.grows {before after : Recorder} (sound : Sound graces before) (grown : Grown before after)
    (observed : Observed after.stop after.cuts after.judged) : Sound graces after :=
  ⟨observed, grown.placed sound.placed⟩

theorem grown_signal (running : recorder.stage.isOver = false) :
    Grown recorder { recorder with stop := recorder.stop.forwardStopSignal } := by
  refine ⟨rfl, rfl, rfl, rfl, Nat.le_refl _, ?_, ?_, ?_, fun _ => id, fun _ => id, fun _ => id⟩
  · unfold StopRequests.forwardStopSignal
    split_ifs <;> rfl
  · simp only [StopRequests.forwardStopSignal]
    split_ifs
    · exact Nat.le_succ _
    · exact Nat.le_refl _
  · rw [running]
    nofun

/-- A result that is there already is not replaced. -/
theorem or_of_some {A : Type} {first : Option A} {value : A} (present : first = some value) (other : Option A) :
    first.or other = some value := by
  rw [present]
  rfl

/-! ### The steps of the recorder -/

theorem nextStopRequest_some {stop next : StopRequests} (unobserved : stop.nextStopRequest = some next) :
    next.requests = stop.requests ∧ 0 < stop.requests := by
  unfold StopRequests.nextStopRequest at unobserved
  split_ifs at unobserved with fresh
  obtain rfl := Option.some.inj unobserved
  exact ⟨rfl, (Nat.zero_le _).trans_lt fresh⟩

theorem sound_onStop (sound : Sound graces recorder) : Sound graces recorder.onStop := by
  have placed := sound.placed
  unfold Placed at placed
  unfold onStop
  cases unobserved : recorder.stop.nextStopRequest with
  | none =>
    simp only [cut, unobserved]
    split <;> exact sound
  | some next =>
    obtain ⟨same, asked⟩ := nextStopRequest_some unobserved
    have observed := sound.observed.cut unobserved
    simp only [cut, unobserved, Option.isSome_some, if_true]
    split
    · rename_i stage
      rw [stage] at placed
      refine ⟨observed .forwarding, ⟨placed.unclosed, placed.alive, fun cut member => ?_⟩, .inl rfl,
        fun _ => same ▸ asked⟩
      rcases List.mem_append.1 member with before | last
      · exact placed.unreaped cut before
      · obtain rfl := List.mem_singleton.1 last
        nofun
    · rename_i result stage
      rw [stage] at placed
      refine ⟨observed .draining, ⟨placed.1.unclosed, placed.1.alive, fun cut member => ?_⟩, .inr (.inl placed.2),
        fun _ => same ▸ asked⟩
      rcases List.mem_append.1 member with before | last
      · exact placed.1.unreaped cut before
      · obtain rfl := List.mem_singleton.1 last
        nofun
    · rename_i pumps storage stage
      rw [stage] at placed
      exact ⟨observed .reaping, placed.1, placed.2.1, ⟨placed.2.2.drawn, fun _ => same ▸ asked⟩,
        .inl ⟨_, List.mem_append_right _ List.mem_cons_self, rfl⟩⟩
    · exact sound

theorem sound_onElapse (sound : Sound graces recorder) : Sound graces (recorder.onElapse graces) := by
  have placed := sound.placed
  unfold Placed at placed
  unfold onElapse
  split
  · rename_i error stage
    rw [stage] at placed
    split_ifs
    · exact ⟨sound.observed, placed.unclosed⟩
    · exact sound
  · rename_i result stage
    rw [stage] at placed
    split_ifs
    · exact ⟨sound.observed, ⟨placed.1.1, placed.1.2, placed.1.3⟩, .inr (.inl placed.2), nofun⟩
    · exact sound
  · rename_i pumps storage stage
    rw [stage] at placed
    split_ifs with late
    · exact ⟨sound.observed, placed.1, placed.2.1, ⟨placed.2.2.1, placed.2.2.2⟩, .inr late.2⟩
    · exact sound
  · exact sound

theorem sound_onServer (sound : Sound graces recorder) : Sound graces recorder.onServer := by
  have placed := sound.placed
  unfold Placed at placed
  unfold onServer
  split
  · rename_i result stage returned
    rw [stage] at placed
    exact ⟨sound.observed, ⟨placed.unclosed, placed.alive, placed.unreaped⟩, .inr (.inr returned), nofun⟩
  · rename_i result drained stage returned
    rw [stage] at placed
    refine ⟨sound.observed, ⟨placed.1.1, placed.1.2, placed.1.3⟩, ?_, nofun⟩
    cases result with
    | ok => exact .inr (.inr returned)
    | error error => exact .inr (.inl placed.2)
  · exact sound

theorem sound_onKill (sound : Sound graces recorder) (outcome : Except String Unit) :
    Sound graces (recorder.onKill outcome) := by
  have placed := sound.placed
  unfold Placed at placed
  unfold onKill
  split
  · rename_i pumps storage stage
    rw [stage] at placed
    exact ⟨sound.observed, placed.1, ⟨placed.2.2.1.1, placed.2.2.1.2⟩,
      ⟨iff_of_true rfl rfl, fun _ => placed.2.2.2, nofun⟩⟩
  · rename_i pumps storage error stage
    rw [stage] at placed
    refine ⟨sound.observed, placed.1, ⟨placed.2.2.1.1, placed.2.2.1.2⟩,
      ⟨?_, fun killed => absurd killed (by simp [enter, placed.2.1]), ?_⟩⟩
    · refine iff_of_false (fun same => ?_) (by simp [enter, placed.2.1])
      unfold tryWait at same
      cases exited : recorder.exited with
      | none =>
        rw [exited] at same
        cases same
      | some status =>
        rw [exited] at same
        cases status <;> cases same
    · intro status same
      unfold tryWait at same
      cases exited : recorder.exited with
      | none =>
        rw [exited] at same
        cases same
      | some known =>
        rw [exited] at same
        cases known with
        | error => cases same
        | ok found =>
          cases same
          exact exited
  · rename_i failure stage
    rw [stage] at placed
    exact ⟨sound.observed, placed.unclosed⟩
  · rename_i failure error stage
    rw [stage] at placed
    split <;> exact ⟨sound.observed, placed.unclosed⟩
  · exact sound

theorem sound_onConclude (sound : Sound graces recorder) : Sound graces recorder.onConclude := by
  have placed := sound.placed
  unfold Placed at placed
  unfold onConclude
  split
  · rename_i pumps storage process stage
    rw [stage] at placed
    obtain ⟨closings, forwarded, reaped⟩ := placed
    split <;> rename_i verdict <;> exact ⟨sound.observed, closings, ⟨forwarded.drawn, forwarded.asked⟩,
      ⟨reaped.killed, reaped.overdue, reaped.exited⟩, verdict.symm⟩
  · exact sound

theorem sound_judge (sound : Sound graces recorder) : Sound graces (recorder.perform graces .judge) := by
  have placed := sound.placed
  unfold Placed at placed
  rw [perform]
  split
  · rename_i pumps stage
    rw [stage] at placed
    split_ifs with asked
    · exact ⟨sound.observed, ⟨placed.1.1, placed.1.2, placed.1.3⟩, placed.2.drawn, placed.2.asked⟩
    · have none_ : recorder.stop.requests = 0 := by
        have unasked : recorder.stop.stopWasRequested = false := by
          simp only [Recorder.stopped, Bool.or_eq_true, not_or, Bool.not_eq_true] at asked
          exact asked.2
        simpa [StopRequests.stopWasRequested] using unasked
      refine ⟨⟨sound.observed.come, sound.observed.rising, sound.observed.seen, ?_, fun cut member reaping =>
        absurd reaping (placed.1.unreaped cut member)⟩, ⟨placed.1.1, placed.1.2, placed.1.3⟩, placed.2.drawn,
        placed.2.asked⟩
      rw [none_]
      exact Nat.zero_le _
  · exact sound

theorem sound_acknowledge (sound : Sound graces recorder) : Sound graces (recorder.perform graces .acknowledge) := by
  have placed := sound.placed
  unfold Placed at placed
  rw [perform]
  split
  · rename_i pumps stage
    rw [stage] at placed
    exact ⟨sound.observed.acknowledge placed.1.unreaped, ⟨placed.1.1, placed.1.2, placed.1.3⟩, placed.2.drawn,
      placed.2.asked⟩
  · exact sound

theorem sound_perform (sound : Sound graces recorder) (step : RecordStep) :
    Sound graces (recorder.perform graces step) := by
  have placed := sound.placed
  unfold Placed at placed
  cases step with
  | refuse error =>
    rw [perform]
    split
    · rename_i stage
      rw [stage] at placed
      exact ⟨sound.observed, placed.unclosed⟩
    · exact sound
  | prepare setup =>
    unfold perform
    dsimp only
    split
    · rename_i stage
      rw [stage] at placed
      exact ⟨sound.observed, placed.unclosed, placed.alive, placed.unreaped⟩
    · rename_i error stage
      rw [stage] at placed
      exact ⟨sound.observed, placed.unclosed, placed.alive, placed.unreaped⟩
    · exact sound
  | signal =>
    rw [perform]
    split_ifs with ended
    · exact sound
    · exact sound.grows (grown_signal (by simpa using ended)) sound.observed.forwardStopSignal
  | unlisten =>
    exact sound.grows ⟨rfl, rfl, rfl, rfl, Nat.le_refl _, rfl, Nat.le_refl _, fun _ => rfl, fun _ => id, fun _ => id,
      fun _ => id⟩ sound.observed.unlisten
  | tick =>
    exact sound.grows ⟨rfl, rfl, rfl, rfl, Nat.le_succ _, rfl, Nat.le_refl _, fun _ => rfl, fun _ => id, fun _ => id,
      fun _ => id⟩ sound.observed
  | clientReturns result =>
    exact sound.grows ⟨rfl, rfl, rfl, rfl, Nat.le_refl _, rfl, Nat.le_refl _, fun _ => rfl,
      fun _ present => or_of_some present _, fun _ => id, fun _ => id⟩ sound.observed
  | serverReturns result =>
    exact sound.grows ⟨rfl, rfl, rfl, rfl, Nat.le_refl _, rfl, Nat.le_refl _, fun _ => rfl, fun _ => id,
      fun _ present => or_of_some present _, fun _ => id⟩ sound.observed
  | serverExits status =>
    exact sound.grows ⟨rfl, rfl, rfl, rfl, Nat.le_refl _, rfl, Nat.le_refl _, fun _ => rfl, fun _ => id, fun _ => id,
      fun _ present => or_of_some present _⟩ sound.observed
  | client =>
    unfold perform
    dsimp only
    split
    · rename_i result stage returned
      rw [stage] at placed
      exact ⟨sound.observed, ⟨placed.unclosed, placed.alive, placed.unreaped⟩, returned⟩
    · exact sound
  | server => exact sound_onServer sound
  | exit =>
    unfold perform
    dsimp only
    split
    · rename_i pumps storage status stage exited
      rw [stage] at placed
      refine ⟨sound.observed, placed.1, ⟨placed.2.2.1, placed.2.2.2⟩,
        ⟨?_, fun killed => absurd killed (by simp [enter, placed.2.1]), ?_⟩⟩
      · exact iff_of_false (by cases status <;> nofun) (by simp [enter, placed.2.1])
      · intro found same
        cases status with
        | error => cases same
        | ok known =>
          cases same
          exact exited
    · exact sound
  | stop => exact sound_onStop sound
  | elapse => exact sound_onElapse sound
  | judge => exact sound_judge sound
  | acknowledge => exact sound_acknowledge sound
  | finish storage =>
    rw [perform]
    split
    · rename_i pumps stage
      rw [stage] at placed
      exact ⟨sound.observed, by simp [placed.1.unclosed], placed.1.alive, placed.2.drawn, placed.2.asked⟩
    · exact sound
  | kill outcome => exact sound_onKill sound outcome
  | conclude => exact sound_onConclude sound

end Steps

theorem sound_run (steps : List RecordStep) : Sound graces (run graces steps) := by
  have kept (recorder : Recorder) (sound : Sound graces recorder) :
      Sound graces (steps.foldl (perform graces) recorder) := by
    induction steps generalizing recorder with
    | nil => exact sound
    | cons step rest ih => exact ih _ (sound_perform sound step)
  exact kept _ (sound_start graces)

theorem both_eq_ok_iff {first second : Except String Unit} :
    both first second = .ok () ↔ first = .ok () ∧ second = .ok () := by
  cases first with
  | ok => exact (and_iff_right rfl).symm
  | error => exact iff_of_false nofun fun same => nomatch same.1

theorem verdict_eq_ok_iff {recorder : Recorder} {pumps : PumpsOutcome} {storage : Except String Unit}
    {process : Except String (Option ExitStatus)} (asked : pumps.stopped = true → 0 < recorder.stop.requests) :
    recorder.verdict pumps storage process = .ok () ↔ pumps.result = .ok () ∧ storage = .ok () ∧
      ∃ status, process = .ok status ∧ ∀ left ∈ status, left.success = true ∨ 0 < recorder.stop.requests := by
  have judged : recorder.stopped pumps = true ↔ 0 < recorder.stop.requests := by
    simp only [Recorder.stopped, StopRequests.stopWasRequested, Bool.or_eq_true, decide_eq_true_eq]
    exact or_iff_right_of_imp asked
  unfold verdict
  rw [both_eq_ok_iff, both_eq_ok_iff]
  refine and_congr_right fun _ => and_congr_right fun _ => ?_
  cases process with
  | error => simp
  | ok status =>
    cases status with
    | none => simp
    | some left =>
      rw [← judged]
      cases success : left.success <;> cases asks : recorder.stopped pumps <;> simp [success]

/-- A stop request cuts at most one wait short, and the wait for the server only if it came after the recorder had
settled whether to stop. The session is finalized once, and before that wait. A server is terminated only when the
wait was cut short or has taken too long, and its failure is reported only if nobody has asked to stop. -/
theorem stop_requests_account (graces : RecordGraces) (steps : List RecordStep) :
    let recorder := run graces steps
    (recorder.cuts.map Prod.snd).Pairwise (· < ·) ∧
      (∀ cut ∈ recorder.cuts, 0 < cut.2 ∧ cut.2 ≤ recorder.stop.requests ∧
        (cut.1 = .reaping → recorder.judged < cut.2)) ∧
      recorder.closings = (if recorder.stage.finalized then 1 else 0) ∧
      ∀ pumps storage process result, recorder.stage = .ended pumps storage process result →
        (pumps.result = .ok () ∨ recorder.clientToServer = some pumps.result ∨
          recorder.serverToClient = some pumps.result) ∧
        (process = .ok none ↔ recorder.killed = true) ∧
        (recorder.killed = true → recorder.Overdue graces) ∧
        (∀ status, process = .ok (some status) → recorder.exited = some (.ok status)) ∧
        (result = .ok () ↔ pumps.result = .ok () ∧ storage = .ok () ∧ ∃ status, process = .ok status ∧
          ∀ left ∈ status, left.success = true ∨ 0 < recorder.stop.requests) := by
  intro recorder
  obtain ⟨observed, placed⟩ : Sound graces recorder := sound_run graces steps
  unfold Placed at placed
  refine ⟨observed.rising, fun cut member => ?_, ?_, fun pumps storage process result stage => ?_⟩
  · obtain ⟨positive, seen⟩ := observed.seen cut member
    exact ⟨positive, seen.trans observed.come, observed.later cut member⟩
  · cases stage : recorder.stage with
    | starting | cleaning | forwarding =>
      rw [stage] at placed
      exact placed.unclosed
    | draining | judging | acknowledging | finalizing =>
      rw [stage] at placed
      exact placed.1.unclosed
    | reaping | killing | concluding | ended =>
      rw [stage] at placed
      exact placed.1
    | failed =>
      rw [stage] at placed
      exact placed
  · rw [stage] at placed
    obtain ⟨-, forwarded, reaped, rfl⟩ := placed
    exact ⟨forwarded.drawn, reaped.killed, reaped.overdue, reaped.exited, verdict_eq_ok_iff forwarded.asked⟩

end Recorder

end McpTracer.Proxy
