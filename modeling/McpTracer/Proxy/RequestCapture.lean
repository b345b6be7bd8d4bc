import McpTracer.Proxy.Pump

/-! The capture of a request body.

A task polls the body of the client and hands its chunks to the upstream request through a bounded channel. A number
is drawn for the message before any byte is handed on, so that no answer to it can be numbered lower. What was
handed on is recorded when the body is over, once and whole, or it is counted as dropped.
-/

set_option autoImplicit false

namespace McpTracer.Proxy
open McpTracer.Foundation McpTracer.Json McpTracer.Protocol

def requestForwardChannelCapacity : Nat := 16

/-- The largest value of the counter for the forwarded bytes. -/
def maxForwardedLength : Nat := 2 ^ 64 - 1

/-- What is fixed for a request. -/
structure RequestSettings where
  capture : Bool
  expectedLength : Option Nat
  lengthFits : ∀ length ∈ expectedLength, length ≤ maxForwardedLength
  fromSlice : List UInt8 → Option Value

def RequestSettings.decodeMessage (settings : RequestSettings) (bytes : List UInt8) (stamp : CaptureStamp) :
    Option McpMessage :=
  (settings.fromSlice bytes).map fun payload =>
    { seq := stamp.seq
      timestampNs := stamp.timestampNs
      direction := .clientToServer
      payload := payload
      payloadBytes := bytes.length }

inductive ForwardPhase where
  | entering
  | polling
  /-- A chunk that the channel has not taken yet. -/
  | sending (bytes : List UInt8)
  /-- The body has failed, and the upstream is to be told. -/
  | failing
  | returned
  deriving DecidableEq

/-- A chunk, or the failure of the body. -/
abbrev ForwardItem : Type := Option (List UInt8)

structure RequestForwarding where
  phase : ForwardPhase
  stamp : Option CaptureStamp
  forwardedLength : Nat
  captured : List UInt8
  tooLarge : Bool
  channel : List ForwardItem
  /-- Whether the upstream request still takes the body. -/
  connected : Bool
  received : List ForwardItem
  /-- The counter of the session, which other tasks draw from as well. -/
  nextSeq : Nat
  handed : List McpMessage
  droppedMessages : Nat
  /-- The chunks that the body has yielded, and whether it has ended. -/
  body : List (List UInt8)
  ended : Bool
  /-- What the channel has taken. -/
  put : List ForwardItem
  /-- The numbers that others drew after the upstream had received something. -/
  later : List Nat

inductive RequestStep where
  | enter (timestampNs : Int)
  | chunk (bytes : List UInt8)
  | failure
  | eof
  /-- The task notices that nobody takes the body any more. -/
  | closed
  | send
  | receive
  | disconnect
  /-- Another task of the session draws a number. -/
  | draw

namespace RequestForwarding

variable (settings : RequestSettings)

def start (nextSeq : Nat) : RequestForwarding where
  phase := .entering
  stamp := none
  forwardedLength := 0
  captured := []
  tooLarge := false
  channel := []
  connected := true
  received := []
  nextSeq := nextSeq
  handed := []
  droppedMessages := 0
  body := []
  ended := false
  put := []
  later := []

/-- A request that was to be captured is counted as dropped. -/
def drop (forwarding : RequestForwarding) : RequestForwarding :=
  if settings.capture then { forwarding with droppedMessages := forwarding.droppedMessages + 1 } else forwarding

def leave (forwarding : RequestForwarding) : RequestForwarding := { forwarding with phase := .returned }

def recordMessageAt (forwarding : RequestForwarding) (stamp : CaptureStamp) : RequestForwarding :=
  match settings.decodeMessage forwarding.captured stamp with
  | some message => { forwarding with handed := forwarding.handed ++ [message] }
  | none => forwarding.drop settings

/-- The body is over. -/
def finish (forwarding : RequestForwarding) : RequestForwarding :=
  if settings.capture then
    if forwarding.tooLarge then (forwarding.drop settings).leave
    else if settings.expectedLength.any (· ≠ forwarding.forwardedLength) then (forwarding.drop settings).leave
    else
      match forwarding.stamp with
      | some stamp => (forwarding.recordMessageAt settings stamp).leave
      | none => forwarding.leave
  else forwarding.leave

/-- The head of the loop: a body of a declared length is over when that much was forwarded. -/
def resume (forwarding : RequestForwarding) : RequestForwarding :=
  if settings.expectedLength = some forwarding.forwardedLength then forwarding.finish settings
  else { forwarding with phase := .polling }

/-- The number and the time are taken before the body is polled. -/
def enter (forwarding : RequestForwarding) (timestampNs : Int) : RequestForwarding :=
  if settings.capture then
    { forwarding with
      stamp := some ⟨forwarding.nextSeq, timestampNs⟩
      nextSeq := forwarding.nextSeq + 1 }.resume settings
  else forwarding.resume settings

def retain (forwarding : RequestForwarding) (bytes : List UInt8) : RequestForwarding :=
  if settings.capture && !forwarding.tooLarge then
    if forwarding.captured.length + bytes.length ≤ maxFrameBytes then
      { forwarding with captured := forwarding.captured ++ bytes }
    else { forwarding with tooLarge := true, captured := [] }
  else forwarding

/-- The channel has taken a chunk. -/
def taken (forwarding : RequestForwarding) (bytes : List UInt8) : RequestForwarding :=
  ({ forwarding with
    channel := forwarding.channel ++ [some bytes]
    put := forwarding.put ++ [some bytes]
    forwardedLength := min (forwarding.forwardedLength + bytes.length) maxForwardedLength }.retain settings
      bytes).resume settings

/-- A send waits for room, and fails when nobody receives. -/
def send (forwarding : RequestForwarding) : RequestForwarding :=
  match forwarding.phase with
  | .sending bytes =>
    if !forwarding.connected then (forwarding.drop settings).leave
    else if forwarding.channel.length < requestForwardChannelCapacity then forwarding.taken settings bytes
    else forwarding
  | .failing =>
    if !forwarding.connected then forwarding.leave
    else if forwarding.channel.length < requestForwardChannelCapacity then
      { forwarding with channel := forwarding.channel ++ [none], put := forwarding.put ++ [none] }.leave
    else forwarding
  | _ => forwarding

/-- A step that is not possible changes nothing. -/
def perform (forwarding : RequestForwarding) : RequestStep → RequestForwarding
  | .enter timestampNs =>
    if forwarding.phase = .entering then forwarding.enter settings timestampNs else forwarding
  | .chunk bytes =>
    if forwarding.phase = .polling then
      { forwarding with phase := .sending bytes, body := forwarding.body ++ [bytes] }
    else forwarding
  | .failure =>
    if forwarding.phase = .polling then { forwarding.drop settings with phase := .failing } else forwarding
  | .eof =>
    if forwarding.phase = .polling then { forwarding with ended := true }.finish settings else forwarding
  | .closed =>
    if forwarding.phase = .polling ∧ forwarding.connected = false then (forwarding.drop settings).leave
    else forwarding
  | .send => forwarding.send settings
  | .receive =>
    match forwarding.channel with
    | item :: rest => { forwarding with channel := rest, received := forwarding.received ++ [item] }
    | [] => forwarding
  | .disconnect => { forwarding with connected := false, channel := [] }
  | .draw =>
    { forwarding with
      nextSeq := forwarding.nextSeq + 1
      later := if forwarding.received = [] then forwarding.later else forwarding.later ++ [forwarding.nextSeq] }

def run (nextSeq : Nat) (steps : List RequestStep) : RequestForwarding :=
  steps.foldl (perform settings) (start nextSeq)

/-! ## What holds on the way -/

def pending (forwarding : RequestForwarding) : List (List UInt8) :=
  match forwarding.phase with
  | .sending bytes => [bytes]
  | _ => []

/-- The chunks that were handed on. -/
def sent (forwarding : RequestForwarding) : List (List UInt8) := forwarding.put.reduceOption

/-- The upstream has the first chunks of the body, and nothing else. -/
structure Carries (forwarding : RequestForwarding) : Prop where
  sent : forwarding.sent <+: forwarding.body
  length : forwarding.forwardedLength = min forwarding.sent.flatten.length maxForwardedLength
  upstream : ∃ lost, forwarding.put = forwarding.received ++ forwarding.channel ++ lost ∧
    (forwarding.connected = true → lost = [])

/-- What is retained of them. -/
structure Retains (forwarding : RequestForwarding) : Prop where
  whole : settings.capture = true → forwarding.tooLarge = false → forwarding.captured = forwarding.sent.flatten
  small : forwarding.captured.length ≤ maxFrameBytes
  large : forwarding.tooLarge = true → maxFrameBytes < forwarding.sent.flatten.length

/-- The number of the request is lower than those that are drawn later. -/
def Precedes (forwarding : RequestForwarding) : Prop :=
  ∀ stamp ∈ forwarding.stamp, stamp.seq < forwarding.nextSeq ∧ ∀ number ∈ forwarding.later, stamp.seq < number

/-- The number is drawn before anything is handed on. -/
structure Numbered (forwarding : RequestForwarding) : Prop where
  stamped : forwarding.phase ≠ .entering → forwarding.stamp.isSome = settings.capture
  unstamped : forwarding.phase = .entering → forwarding.stamp = none ∧ forwarding.put = [] ∧ forwarding.later = []
  below : forwarding.Precedes

/-- All of the body was handed on. -/
def Whole (forwarding : RequestForwarding) : Prop :=
  forwarding.sent = forwarding.body ∧
    match settings.expectedLength with
    | some length => forwarding.body.flatten.length = length
    | none => forwarding.ended = true

/-- The body can be recorded as a message. -/
def Recordable (forwarding : RequestForwarding) : Prop :=
  settings.capture = true ∧ forwarding.Whole settings ∧ forwarding.body.flatten.length ≤ maxFrameBytes ∧
    (settings.fromSlice forwarding.body.flatten).isSome = true

def lost : Nat := if settings.capture then 1 else 0

/-- The request was recorded, or counted as dropped. -/
def Settled (forwarding : RequestForwarding) : Prop :=
  (forwarding.handed = [] ∧ forwarding.droppedMessages = lost settings ∧ ¬ forwarding.Recordable settings) ∨
    (forwarding.Recordable settings ∧ forwarding.droppedMessages = 0 ∧ ∃ stamp ∈ forwarding.stamp, ∃ message,
      settings.decodeMessage forwarding.body.flatten stamp = some message ∧ forwarding.handed = [message])

/-- The body is not over as far as the task knows. -/
def Unfinished (forwarding : RequestForwarding) : Prop :=
  settings.expectedLength ≠ some forwarding.forwardedLength ∧ forwarding.ended = false

def Accounted (forwarding : RequestForwarding) : Prop :=
  match forwarding.phase with
  | .entering => forwarding.handed = [] ∧ forwarding.droppedMessages = 0 ∧ forwarding.ended = false
  | .polling | .sending _ =>
    forwarding.handed = [] ∧ forwarding.droppedMessages = 0 ∧ forwarding.Unfinished settings
  | .failing => forwarding.handed = [] ∧ forwarding.droppedMessages = lost settings ∧ forwarding.Unfinished settings
  | .returned => forwarding.Settled settings

structure Sound (forwarding : RequestForwarding) : Prop where
  flow : forwarding.phase ≠ .returned → forwarding.sent ++ forwarding.pending = forwarding.body
  carries : forwarding.Carries
  retains : forwarding.Retains settings
  numbered : forwarding.Numbered settings
  accounted : forwarding.Accounted settings

theorem sound_start (nextSeq : Nat) : Sound settings (start nextSeq) where
  flow := fun _ => rfl
  carries := ⟨List.nil_prefix, rfl, [], rfl, fun _ => rfl⟩
  retains := ⟨fun _ _ => rfl, Nat.zero_le _, nofun⟩
  numbered := ⟨fun entered => absurd rfl entered, fun _ => ⟨rfl, rfl, rfl⟩, nofun⟩
  accounted := ⟨rfl, rfl, rfl⟩

section Steps
variable {settings} {forwarding : RequestForwarding}

theorem not_whole (carries : forwarding.Carries) (unfinished : forwarding.Unfinished settings) :
    ¬ forwarding.Whole settings := by
  rintro ⟨all, complete⟩
  cases declared : settings.expectedLength with
  | none =>
    rw [declared, unfinished.2] at complete
    cases complete
  | some length =>
    rw [declared] at complete
    have fits := settings.lengthFits length declared
    apply unfinished.1
    rw [declared, carries.length, all, complete, Nat.min_eq_left fits]

/-- The task returns, and only what is recorded and counted changes. -/
def settle (forwarding : RequestForwarding) (handed : List McpMessage) (droppedMessages : Nat) : RequestForwarding :=
  { forwarding with phase := .returned, handed := handed, droppedMessages := droppedMessages }

theorem leave_drop_eq : (forwarding.drop settings).leave =
    forwarding.settle forwarding.handed (forwarding.droppedMessages + lost settings) := by
  unfold drop
  split_ifs with capture <;> simp [leave, settle, lost, capture]

theorem finish_eq :
    ∃ handed droppedMessages, forwarding.finish settings = forwarding.settle handed droppedMessages := by
  unfold finish
  split_ifs
  · exact ⟨_, _, leave_drop_eq⟩
  · exact ⟨_, _, leave_drop_eq⟩
  · cases forwarding.stamp with
    | none => exact ⟨_, _, rfl⟩
    | some stamp =>
      simp only [recordMessageAt]
      cases settings.decodeMessage forwarding.captured stamp with
      | none => exact ⟨_, _, leave_drop_eq⟩
      | some message => exact ⟨_, _, rfl⟩
  · exact ⟨_, _, rfl⟩

/-- Giving up a request that cannot be recorded. -/
theorem settled_drop (handed : forwarding.handed = []) (dropped : forwarding.droppedMessages = 0)
    (lossy : ¬ forwarding.Recordable settings) : (forwarding.drop settings).leave.Settled settings := by
  rw [leave_drop_eq]
  exact .inl ⟨handed, by simp [settle, dropped], lossy⟩

theorem settled_finish (carries : forwarding.Carries) (retains : forwarding.Retains settings)
    (stamped : forwarding.stamp.isSome = settings.capture) (all : forwarding.sent = forwarding.body)
    (handed : forwarding.handed = []) (dropped : forwarding.droppedMessages = 0)
    (complete : settings.expectedLength = some forwarding.forwardedLength ∨ forwarding.ended = true) :
    (forwarding.finish settings).Settled settings := by
  unfold finish
  split_ifs with capture large short
  · refine settled_drop handed dropped fun recordable => ?_
    have excess := retains.large large
    rw [all] at excess
    exact absurd recordable.2.2.1 (Nat.not_le.2 excess)
  · refine settled_drop handed dropped fun recordable => ?_
    have whole := recordable.2.1.2
    cases declared : settings.expectedLength with
    | none => simp [declared] at short
    | some length =>
      rw [declared] at whole short
      have counted := carries.length
      rw [all, whole, Nat.min_eq_left (settings.lengthFits length declared)] at counted
      simp [counted] at short
  · obtain ⟨stamp, drawn⟩ := Option.isSome_iff_exists.1 (stamped.trans capture)
    have captured := retains.whole capture (Bool.eq_false_iff.2 large)
    rw [all] at captured
    have small := retains.small
    rw [captured] at small
    have whole : forwarding.Whole settings := by
      refine ⟨all, ?_⟩
      cases declared : settings.expectedLength with
      | none =>
        rw [declared] at complete
        exact complete.resolve_left nofun
      | some length =>
        have counted := carries.length
        rw [all, Nat.min_eq_left (small.trans (by decide))] at counted
        rw [declared] at short
        have same : length = forwarding.forwardedLength := by simpa using short
        exact counted.symm.trans same.symm
    simp only [drawn, recordMessageAt, captured]
    cases decoded : settings.decodeMessage forwarding.body.flatten stamp with
    | none =>
      refine settled_drop handed dropped fun recordable => ?_
      have readable := recordable.2.2.2
      rw [RequestSettings.decodeMessage, Option.map_eq_none_iff] at decoded
      rw [decoded] at readable
      cases readable
    | some message =>
      have readable : (settings.fromSlice forwarding.body.flatten).isSome = true := by
        rw [RequestSettings.decodeMessage] at decoded
        obtain ⟨payload, read, -⟩ := Option.map_eq_some_iff.1 decoded
        rw [read]
        rfl
      refine .inr ⟨⟨capture, whole, small, readable⟩, dropped, stamp, rfl, message, decoded, ?_⟩
      simp [leave, handed]
  · exact .inl ⟨handed, by simp [leave, dropped, lost, capture], fun recordable => capture recordable.1⟩

/-- A task that returns leaves what was carried, retained and numbered. -/
theorem sound_settle {handed : List McpMessage} {droppedMessages : Nat} (carries : forwarding.Carries)
    (retains : forwarding.Retains settings) (stamped : forwarding.stamp.isSome = settings.capture)
    (below : forwarding.Precedes)
    (settled : (forwarding.settle handed droppedMessages).Settled settings) :
    Sound settings (forwarding.settle handed droppedMessages) where
  flow := fun left => absurd rfl left
  carries := ⟨carries.sent, carries.length, carries.upstream⟩
  retains := ⟨retains.whole, retains.small, retains.large⟩
  numbered := ⟨fun _ => stamped, nofun, below⟩
  accounted := settled

theorem sound_finish (carries : forwarding.Carries) (retains : forwarding.Retains settings)
    (stamped : forwarding.stamp.isSome = settings.capture) (below : forwarding.Precedes)
    (all : forwarding.sent = forwarding.body) (handed : forwarding.handed = [])
    (dropped : forwarding.droppedMessages = 0)
    (complete : settings.expectedLength = some forwarding.forwardedLength ∨ forwarding.ended = true) :
    Sound settings (forwarding.finish settings) := by
  have settled := settled_finish carries retains stamped all handed dropped complete
  obtain ⟨messages, drops, same⟩ := @finish_eq settings forwarding
  rw [same] at settled ⊢
  exact sound_settle carries retains stamped below settled

/-- The head of the loop, where all that the body yielded was handed on. -/
theorem sound_resume (carries : forwarding.Carries) (retains : forwarding.Retains settings)
    (stamped : forwarding.stamp.isSome = settings.capture) (below : forwarding.Precedes)
    (all : forwarding.sent = forwarding.body) (handed : forwarding.handed = [])
    (dropped : forwarding.droppedMessages = 0)
    (running : forwarding.ended = false) : Sound settings (forwarding.resume settings) := by
  unfold resume
  split_ifs with complete
  · exact sound_finish carries retains stamped below all handed dropped (.inl complete)
  · exact {
      flow := fun _ => (List.append_nil _).trans all
      carries := ⟨carries.sent, carries.length, carries.upstream⟩
      retains := ⟨retains.whole, retains.small, retains.large⟩
      numbered := ⟨fun _ => stamped, nofun, below⟩
      accounted := ⟨handed, dropped, complete, running⟩ }

theorem sound_drop (sound : Sound settings forwarding) (began : forwarding.phase ≠ .entering)
    (handed : forwarding.handed = []) (dropped : forwarding.droppedMessages = 0)
    (lossy : ¬ forwarding.Recordable settings) : Sound settings (forwarding.drop settings).leave := by
  have settled := settled_drop handed dropped lossy
  rw [leave_drop_eq] at settled ⊢
  exact sound_settle sound.carries sound.retains (sound.numbered.stamped began) sound.numbered.below settled

theorem sound_enter (sound : Sound settings forwarding) (entering : forwarding.phase = .entering) (timestampNs : Int) :
    Sound settings (forwarding.enter settings timestampNs) := by
  have accounted := sound.accounted
  simp only [Accounted, entering] at accounted
  obtain ⟨handed, dropped, running⟩ := accounted
  obtain ⟨unstamped, -, unread⟩ := sound.numbered.unstamped entering
  have flow := sound.flow (by rw [entering]; nofun)
  have all : forwarding.sent = forwarding.body := by rwa [pending, entering, List.append_nil] at flow
  unfold enter
  split_ifs with capture
  · refine sound_resume ⟨sound.carries.sent, sound.carries.length, sound.carries.upstream⟩
      ⟨sound.retains.whole, sound.retains.small, sound.retains.large⟩ capture.symm (fun stamp drawn => ?_) all handed
      dropped running
    obtain rfl := Option.some.inj drawn
    exact ⟨Nat.lt_succ_self _, by simp [unread]⟩
  · refine sound_resume sound.carries sound.retains ?_ sound.numbered.below all handed dropped running
    rw [unstamped]
    exact (Bool.eq_false_iff.2 capture).symm

theorem polling_all (sound : Sound settings forwarding) (polling : forwarding.phase = .polling) :
    forwarding.sent = forwarding.body := by
  have flow := sound.flow (by rw [polling]; nofun)
  rwa [pending, polling, List.append_nil] at flow

theorem sound_chunk (sound : Sound settings forwarding) (polling : forwarding.phase = .polling) (bytes : List UInt8) :
    Sound settings { forwarding with phase := .sending bytes, body := forwarding.body ++ [bytes] } := by
  have accounted := sound.accounted
  have all := polling_all sound polling
  simp only [Accounted, polling] at accounted
  exact {
    flow := fun _ => congrArg (· ++ [bytes]) all
    carries := ⟨sound.carries.sent.trans (List.prefix_append _ _), sound.carries.length, sound.carries.upstream⟩
    retains := ⟨sound.retains.whole, sound.retains.small, sound.retains.large⟩
    numbered := ⟨fun _ => sound.numbered.stamped (by rw [polling]; nofun), nofun, sound.numbered.below⟩
    accounted := accounted }

theorem sound_failure (sound : Sound settings forwarding) (polling : forwarding.phase = .polling) :
    Sound settings { forwarding.drop settings with phase := .failing } := by
  have accounted := sound.accounted
  simp only [Accounted, polling] at accounted
  obtain ⟨handed, dropped, unfinished⟩ := accounted
  have all := polling_all sound polling
  have same : ({ forwarding.drop settings with phase := .failing } : RequestForwarding) =
      { forwarding with phase := .failing, droppedMessages := forwarding.droppedMessages + lost settings } := by
    unfold drop
    split_ifs with capture <;> simp [lost, capture]
  rw [same]
  exact {
    flow := fun _ => (List.append_nil _).trans all
    carries := ⟨sound.carries.sent, sound.carries.length, sound.carries.upstream⟩
    retains := ⟨sound.retains.whole, sound.retains.small, sound.retains.large⟩
    numbered := ⟨fun _ => sound.numbered.stamped (by rw [polling]; nofun), nofun, sound.numbered.below⟩
    accounted := ⟨handed, by rw [dropped, Nat.zero_add], unfinished⟩ }

theorem sound_eof (sound : Sound settings forwarding) (polling : forwarding.phase = .polling) :
    Sound settings ({ forwarding with ended := true }.finish settings) := by
  have accounted := sound.accounted
  simp only [Accounted, polling] at accounted
  obtain ⟨handed, dropped, unfinished⟩ := accounted
  have all := polling_all sound polling
  have stamped := sound.numbered.stamped (by rw [polling]; nofun)
  exact sound_finish ⟨sound.carries.sent, sound.carries.length, sound.carries.upstream⟩
    ⟨sound.retains.whole, sound.retains.small, sound.retains.large⟩ stamped sound.numbered.below all handed dropped
    (.inr rfl)

theorem retain_eq (bytes : List UInt8) : ∃ captured tooLarge,
    forwarding.retain settings bytes = { forwarding with captured := captured, tooLarge := tooLarge } := by
  unfold retain
  split_ifs
  · exact ⟨_, _, rfl⟩
  · exact ⟨_, _, rfl⟩
  · exact ⟨_, _, rfl⟩

theorem sent_concat (item : ForwardItem) :
    (forwarding.put ++ [item]).reduceOption = forwarding.sent ++ item.toList := by
  rw [List.reduceOption_append, sent]
  cases item <;> rfl

/-- A chunk that is handed on is retained, or nothing is from then on. -/
theorem retains_retain {next : RequestForwarding} {bytes : List UInt8} (retains : forwarding.Retains settings)
    (kept : next.captured = forwarding.captured ∧ next.tooLarge = forwarding.tooLarge)
    (grown : next.sent.flatten = forwarding.sent.flatten ++ bytes) : (next.retain settings bytes).Retains settings := by
  obtain ⟨captured, tooLarge⟩ := kept
  unfold retain
  split_ifs with retaining room
  · obtain ⟨capture, plain⟩ := Bool.and_eq_true_iff.1 retaining
    have whole := retains.whole capture (tooLarge.symm.trans (by simpa using plain))
    refine ⟨fun _ _ => ?_, by simpa using room, fun large => ?_⟩
    · exact (congrArg (· ++ bytes) (captured.trans whole)).trans grown.symm
    · exact absurd large (by simpa using plain)
  · obtain ⟨capture, plain⟩ := Bool.and_eq_true_iff.1 retaining
    have whole := retains.whole capture (tooLarge.symm.trans (by simpa using plain))
    refine ⟨fun _ small => absurd small (by simp), Nat.zero_le _, fun _ => ?_⟩
    change maxFrameBytes < next.sent.flatten.length
    rw [grown, List.length_append, ← whole, ← captured]
    omega
  · refine ⟨fun capture plain => ?_, captured ▸ retains.small, fun large => ?_⟩
    · simp [capture, plain] at retaining
    · have excess := retains.large (tooLarge ▸ large)
      rw [grown, List.length_append]
      omega

theorem sound_taken (sound : Sound settings forwarding) {bytes : List UInt8}
    (sending : forwarding.phase = .sending bytes) (connected : forwarding.connected = true) :
    Sound settings (forwarding.taken settings bytes) := by
  have accounted := sound.accounted
  simp only [Accounted, sending] at accounted
  obtain ⟨handed, dropped, unfinished⟩ := accounted
  have all := sound.flow (by rw [sending]; nofun)
  rw [pending, sending] at all
  have stamped := sound.numbered.stamped (by rw [sending]; nofun)
  have grown := (sent_concat (some bytes)).trans all
  have total := congrArg (fun chunks => chunks.flatten) (@sent_concat forwarding (some bytes))
  obtain ⟨lostItems, upstream, kept⟩ := sound.carries.upstream
  obtain rfl := kept connected
  have retains := @retains_retain settings forwarding { forwarding with
    channel := forwarding.channel ++ [some bytes]
    put := forwarding.put ++ [some bytes]
    forwardedLength := min (forwarding.forwardedLength + bytes.length) maxForwardedLength } bytes sound.retains
    ⟨rfl, rfl⟩ (total.trans (by simp))
  unfold taken
  obtain ⟨captured, tooLarge, same⟩ := @retain_eq settings { forwarding with
    channel := forwarding.channel ++ [some bytes]
    put := forwarding.put ++ [some bytes]
    forwardedLength := min (forwarding.forwardedLength + bytes.length) maxForwardedLength } bytes
  rw [same] at retains ⊢
  refine sound_resume ⟨?_, ?_, [], ?_, fun _ => rfl⟩ retains stamped sound.numbered.below grown handed dropped
    unfinished.2
  · exact grown ▸ List.prefix_refl _
  · change min (forwarding.forwardedLength + bytes.length) maxForwardedLength =
      min (forwarding.put ++ [some bytes]).reduceOption.flatten.length maxForwardedLength
    rw [sent_concat, sound.carries.length]
    simp only [Option.toList_some, List.flatten_append, List.flatten_singleton, List.length_append]
    omega
  · change forwarding.put ++ [some bytes] = _
    rw [upstream]
    simp

theorem sound_send (sound : Sound settings forwarding) : Sound settings (forwarding.send settings) := by
  have accounted := sound.accounted
  unfold send
  split
  · rename_i bytes sending
    simp only [Accounted, sending] at accounted
    obtain ⟨handed, dropped, unfinished⟩ := accounted
    split_ifs with gone room
    · exact sound_drop sound (by rw [sending]; nofun) handed dropped fun recordable =>
        not_whole sound.carries unfinished recordable.2.1
    · exact sound_taken sound sending (by simpa using gone)
    · exact sound
  · rename_i failing
    simp only [Accounted, failing] at accounted
    obtain ⟨handed, dropped, unfinished⟩ := accounted
    have all := sound.flow (by rw [failing]; nofun)
    rw [pending, failing, List.append_nil] at all
    have stamped := sound.numbered.stamped (by rw [failing]; nofun)
    have lossy := fun recordable : forwarding.Recordable settings => not_whole sound.carries unfinished recordable.2.1
    split_ifs with gone room
    · exact sound_settle sound.carries sound.retains stamped sound.numbered.below (.inl ⟨handed, dropped, lossy⟩)
    · obtain ⟨lostItems, upstream, kept⟩ := sound.carries.upstream
      obtain rfl := kept (by simpa using gone)
      set told : RequestForwarding := { forwarding with
        channel := forwarding.channel ++ [none]
        put := forwarding.put ++ [none] } with toldEq
      have same : told.sent = forwarding.sent := (sent_concat none).trans (List.append_nil _)
      have carries : told.Carries := by
        refine ⟨?_, ?_, [], ?_, fun _ => rfl⟩
        · rw [same]
          exact sound.carries.sent
        · rw [same]
          exact sound.carries.length
        · simp [toldEq, upstream]
      have retains : told.Retains settings := by
        refine ⟨fun capture small => ?_, sound.retains.small, fun large => ?_⟩
        · rw [same]
          exact sound.retains.whole capture small
        · rw [same]
          exact sound.retains.large large
      exact sound_settle carries retains stamped sound.numbered.below (.inl ⟨handed, dropped, fun recordable =>
        not_whole carries unfinished recordable.2.1⟩)
    · exact sound
  · exact sound

theorem sound_receive (sound : Sound settings forwarding) {item : ForwardItem} {rest : List ForwardItem}
    (queued : forwarding.channel = item :: rest) :
    Sound settings { forwarding with channel := rest, received := forwarding.received ++ [item] } := by
  obtain ⟨lostItems, upstream, kept⟩ := sound.carries.upstream
  exact {
    flow := sound.flow
    carries := ⟨sound.carries.sent, sound.carries.length, lostItems,
      by rw [upstream, queued]; simp, kept⟩
    retains := ⟨sound.retains.whole, sound.retains.small, sound.retains.large⟩
    numbered := ⟨sound.numbered.stamped, sound.numbered.unstamped, sound.numbered.below⟩
    accounted := sound.accounted }

theorem sound_disconnect (sound : Sound settings forwarding) :
    Sound settings { forwarding with connected := false, channel := [] } := by
  obtain ⟨lostItems, upstream, -⟩ := sound.carries.upstream
  exact {
    flow := sound.flow
    carries := ⟨sound.carries.sent, sound.carries.length, forwarding.channel ++ lostItems,
      by rw [upstream]; simp, nofun⟩
    retains := ⟨sound.retains.whole, sound.retains.small, sound.retains.large⟩
    numbered := ⟨sound.numbered.stamped, sound.numbered.unstamped, sound.numbered.below⟩
    accounted := sound.accounted }

theorem sound_draw (sound : Sound settings forwarding) : Sound settings { forwarding with
    nextSeq := forwarding.nextSeq + 1
    later := if forwarding.received = [] then forwarding.later else forwarding.later ++ [forwarding.nextSeq] } := by
  obtain ⟨lostItems, upstream, -⟩ := sound.carries.upstream
  exact {
    flow := sound.flow
    carries := ⟨sound.carries.sent, sound.carries.length, sound.carries.upstream⟩
    retains := ⟨sound.retains.whole, sound.retains.small, sound.retains.large⟩
    numbered := {
      stamped := sound.numbered.stamped
      unstamped := fun entering => by
        obtain ⟨unstamped, nothing, unread⟩ := sound.numbered.unstamped entering
        have unreceived : forwarding.received = [] := by
          rw [nothing] at upstream
          simpa using (List.append_eq_nil_iff.1 (List.append_eq_nil_iff.1 upstream.symm).1).1
        exact ⟨unstamped, nothing, by rw [if_pos unreceived, unread]⟩
      below := fun stamp drawn => by
        obtain ⟨below, earlier⟩ := sound.numbered.below stamp drawn
        refine ⟨Nat.lt_succ_of_lt below, fun number member => ?_⟩
        split_ifs at member
        · exact earlier number member
        · rcases List.mem_append.1 member with before | last
          · exact earlier number before
          · rwa [List.mem_singleton.1 last] }
    accounted := sound.accounted }

theorem sound_perform (sound : Sound settings forwarding) (step : RequestStep) :
    Sound settings (forwarding.perform settings step) := by
  cases step with
  | enter timestampNs =>
    rw [perform]
    split_ifs with entering
    · exact sound_enter sound entering timestampNs
    · exact sound
  | chunk bytes =>
    rw [perform]
    split_ifs with polling
    · exact sound_chunk sound polling bytes
    · exact sound
  | failure =>
    rw [perform]
    split_ifs with polling
    · exact sound_failure sound polling
    · exact sound
  | eof =>
    rw [perform]
    split_ifs with polling
    · exact sound_eof sound polling
    · exact sound
  | closed =>
    rw [perform]
    split_ifs with gone
    · have accounted := sound.accounted
      simp only [Accounted, gone.1] at accounted
      obtain ⟨handed, dropped, unfinished⟩ := accounted
      exact sound_drop sound (by rw [gone.1]; nofun) handed dropped fun recordable =>
        not_whole sound.carries unfinished recordable.2.1
    · exact sound
  | send => exact sound_send sound
  | receive =>
    rw [perform]
    cases queued : forwarding.channel with
    | nil => exact sound
    | cons item rest => exact sound_receive sound queued
  | disconnect => exact sound_disconnect sound
  | draw => exact sound_draw sound

end Steps

theorem sound_run (settings : RequestSettings) (nextSeq : Nat) (steps : List RequestStep) :
    Sound settings (run settings nextSeq steps) := by
  have kept (forwarding : RequestForwarding) (sound : Sound settings forwarding) :
      Sound settings (steps.foldl (perform settings) forwarding) := by
    induction steps generalizing forwarding with
    | nil => exact sound
    | cons step rest ih => exact ih _ (sound_perform sound step)
  exact kept _ (sound_start settings nextSeq)

end RequestForwarding

end McpTracer.Proxy
