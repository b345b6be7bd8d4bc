import McpTracer.Proxy.ResponseCapture

/-! The capture of a response body is complete, or what it lacks is counted.

What the reader has processed is a prefix of what was forwarded, and it ends before the first chunk
that was lost. What was handed to the recorder is what that prefix says, and where something of it
was no message, a drop has been counted.
-/

set_option autoImplicit false

namespace McpTracer.Proxy
open McpTracer.Foundation McpTracer.Json McpTracer.Protocol

/-! ## What a body says -/

/-- A message up to its number and its time. -/
structure MessageContent where
  direction : Direction
  payload : Value
  payloadBytes : Nat
  deriving DecidableEq

def messageContent (message : McpMessage) : MessageContent where
  direction := message.direction
  payload := message.payload
  payloadBytes := message.payloadBytes

namespace ResponseSettings

/-- What the bytes of a response are as a message, if they are one. -/
def content (settings : ResponseSettings) (bytes : List UInt8) : Option MessageContent :=
  (settings.fromSlice bytes).map fun payload => ⟨.serverToClient, payload, bytes.length⟩

def eventContent (settings : ResponseSettings) : SseEvent → Option MessageContent
  | .json bytes => settings.content bytes
  | .oversized => none
  | .incomplete => none

/-- What can be read off the chunks before the end of the body, one entry for each event. -/
def readContents (settings : ResponseSettings) (chunks : List (List UInt8)) : List (Option MessageContent) :=
  match settings.kind with
  | .json => []
  | .sse => (feed SseDecoder.push .default chunks).2.map settings.eventContent

/-- What a whole body says: its only value, or one entry for each event. -/
def bodyContents (settings : ResponseSettings) (chunks : List (List UInt8)) : List (Option MessageContent) :=
  match settings.kind with
  | .json => if chunks.flatten = [] then [] else [settings.content chunks.flatten]
  | .sse => (SseDecoder.decode chunks).map settings.eventContent

theorem decodeMessage_content (settings : ResponseSettings) (bytes : List UInt8) (stamp : CaptureStamp) :
    (settings.decodeMessage bytes .serverToClient stamp).map messageContent = settings.content bytes := by
  rw [decodeMessage, Option.map_map, content]
  rfl

theorem readContents_concat (settings : ResponseSettings) (sse : settings.kind = .sse) (chunks : List (List UInt8))
    (bytes : List UInt8) :
    settings.readContents (chunks ++ [bytes]) = settings.readContents chunks ++
      ((feed SseDecoder.push .default chunks).1.push bytes).2.map settings.eventContent := by
  simp [readContents, sse, feed_append, feed]

theorem bodyContents_sse (settings : ResponseSettings) (sse : settings.kind = .sse) (chunks : List (List UInt8)) :
    settings.bodyContents chunks = settings.readContents chunks ++
      (feed SseDecoder.push .default chunks).1.finish.2.map settings.eventContent := by
  simp [bodyContents, readContents, sse, SseDecoder.decode]

/-- Whatever a prefix of the body says, the body says first. -/
theorem readContents_prefix (settings : ResponseSettings) (chunks more : List (List UInt8)) :
    settings.readContents chunks <+: settings.bodyContents (chunks ++ more) := by
  cases kind : settings.kind with
  | json =>
    rw [readContents, kind]
    exact List.nil_prefix
  | sse =>
    rw [bodyContents_sse settings kind, readContents, readContents, kind]
    simp only [feed_append, List.map_append, List.append_assoc]
    exact List.prefix_append _ _

end ResponseSettings

/-! ## What the session was told -/

theorem map_some_reduceOption {contents : List (Option MessageContent)} (present : ∀ entry ∈ contents, entry ≠ none) :
    contents.reduceOption.map some = contents := by
  induction contents with
  | nil => rfl
  | cons entry rest ih =>
    obtain ⟨content, rfl⟩ := Option.ne_none_iff_exists'.1 (present entry List.mem_cons_self)
    rw [List.reduceOption_cons_of_some, List.map_cons, ih fun other later => present other (.tail _ later)]

/-- The messages among the entries have been handed over, and each other entry has been counted. -/
structure Recounts (session : ResponseSession) (contents : List (Option MessageContent)) : Prop where
  handed : session.handed.map messageContent = contents.reduceOption
  counted : contents.countP Option.isNone ≤ session.droppedMessages

namespace Recounts

variable {session : ResponseSession} {contents : List (Option MessageContent)}

theorem start : Recounts .start [] := ⟨rfl, Nat.le_refl 0⟩

theorem drop (recounts : Recounts session contents) : Recounts session.drop contents :=
  ⟨recounts.handed, Nat.le_succ_of_le recounts.counted⟩

theorem drop_none (recounts : Recounts session contents) : Recounts session.drop (contents ++ [none]) := by
  constructor
  · rw [List.reduceOption_append, ← recounts.handed]
    exact (List.append_nil _).symm
  · rw [List.countP_append]
    exact Nat.succ_le_succ recounts.counted

theorem recordMessage (recounts : Recounts session contents) (settings : ResponseSettings) (bytes : List UInt8) :
    Recounts (session.recordMessage settings bytes) (contents ++ [settings.content bytes]) := by
  have same := settings.decodeMessage_content bytes (settings.stamps session.drawn)
  unfold ResponseSession.recordMessage
  dsimp only
  split
  case h_1 message decoded =>
    rw [decoded] at same
    rw [← same]
    constructor
    · simpa [List.reduceOption_append] using recounts.handed
    · simpa [List.countP_append] using recounts.counted
  case h_2 invalid =>
    rw [invalid] at same
    rw [← same]
    exact drop_none ⟨recounts.handed, recounts.counted⟩

theorem recordSseEvents (recounts : Recounts session contents) (settings : ResponseSettings) (events : List SseEvent) :
    Recounts (session.recordSseEvents settings events) (contents ++ events.map settings.eventContent) := by
  induction events generalizing session contents with
  | nil => simpa [ResponseSession.recordSseEvents] using recounts
  | cons event rest ih =>
    have first : Recounts (session.recordSseEvent settings event) (contents ++ [settings.eventContent event]) := by
      cases event with
      | json bytes => exact recounts.recordMessage settings bytes
      | oversized => exact recounts.drop_none
      | incomplete => exact recounts.drop_none
    simpa [ResponseSession.recordSseEvents] using ih first

/-- Where nothing was counted, every entry is a message that has been handed over. -/
theorem complete (recounts : Recounts session contents) (spared : session.droppedMessages = 0) :
    contents = session.handed.map fun message => some (messageContent message) := by
  have missing : contents.countP Option.isNone = 0 := Nat.le_zero.1 (spared ▸ recounts.counted)
  have present : ∀ entry ∈ contents, entry ≠ none := by simpa using missing
  calc contents = contents.reduceOption.map some := (map_some_reduceOption present).symm
    _ = session.handed.map fun message => some (messageContent message) := by
      rw [← recounts.handed, List.map_map]
      rfl

end Recounts

/-! ## The tap -/

/-- What has been processed, what waits and what was skipped make up what was forwarded. -/
structure TapSound (settings : ResponseSettings) (processed skipped : List (List UInt8)) (capture : ResponseCapture) :
    Prop where
  flow : capture.forwarded = processed ++ capture.queued ++ skipped ++ capture.pending
  skips : skipped ≠ [] → capture.overflowed = true
  offered : capture.pending ≠ [] → capture.reader ≠ .returned → skipped = []
  unlost : capture.pending ≠ [] → capture.lost = []
  lost : ∀ index ∈ capture.lost, (processed ++ capture.queued).length ≤ index
  gaps : capture.lost ≠ [] → capture.overflowed = true
  counted : capture.overflowed = true → 0 < capture.session.droppedMessages
  observed : capture.overflowed = false →
    capture.observedLength = min capture.forwarded.flatten.length maxObservedLength
  complete : capture.overflowed = false → capture.complete = true → capture.AtEnd settings
  stopped : capture.overflowed = false → capture.phase = .dropped ∨ capture.phase = .closed →
    capture.complete = true ∨ (settings.kind = .sse ∧ settings.expectedLength = none)

/-- The reader and what it has recorded are left alone; only drops are counted. -/
structure TapKeeps (capture next : ResponseCapture) : Prop where
  reader : next.reader = capture.reader
  captured : next.captured = capture.captured
  tooLarge : next.tooLarge = capture.tooLarge
  decoder : next.decoder = capture.decoder
  handed : next.session.handed = capture.session.handed
  dropped : capture.session.droppedMessages ≤ next.session.droppedMessages
  overflowed : next.overflowed = false → capture.overflowed = false
  isOpen : capture.phase = .closed → next = capture

/-- The tap and what it has forwarded are left alone. -/
structure ReaderKeeps (capture next : ResponseCapture) : Prop where
  phase : next.phase = capture.phase
  complete : next.complete = capture.complete
  observedLength : next.observedLength = capture.observedLength
  overflowed : next.overflowed = capture.overflowed
  forwarded : next.forwarded = capture.forwarded
  lost : next.lost = capture.lost
  ended : next.ended = capture.ended
  dropped : capture.session.droppedMessages ≤ next.session.droppedMessages

namespace ResponseCapture

theorem start_sound (settings : ResponseSettings) : TapSound settings [] [] (start settings) := by
  constructor
  case complete =>
    intro _ complete
    have empty : settings.expectedLength = some 0 := of_decide_eq_true complete
    rw [AtEnd, empty]
    rfl
  all_goals simp [start, queued, pending]

variable {settings : ResponseSettings} {processed skipped : List (List UInt8)} {capture : ResponseCapture}

theorem markIncomplete_cases (capture : ResponseCapture) : ∃ session,
    capture.markIncomplete = { capture with overflowed := true, session := session } ∧
      session.handed = capture.session.handed ∧
      capture.session.droppedMessages ≤ session.droppedMessages ∧
      (capture.overflowed = false → 0 < session.droppedMessages) := by
  unfold markIncomplete
  split
  case isTrue overflowed =>
    refine ⟨capture.session, ?_, rfl, Nat.le_refl _, by simp [overflowed]⟩
    rw [← overflowed]
  case isFalse whole => exact ⟨capture.session.drop, rfl, rfl, Nat.le_succ _, fun _ => Nat.succ_pos _⟩

theorem pending_of_polling (polling : capture.phase = .polling) : capture.pending = [] := by
  rw [pending, polling]

end ResponseCapture

namespace TapSound

variable {settings : ResponseSettings} {processed skipped : List (List UInt8)} {capture next : ResponseCapture}

/-- Once the flag is set, only the flow of the chunks is left to be followed. -/
theorem of_overflowed (overflowed : next.overflowed = true) (counted : 0 < next.session.droppedMessages)
    (flow : next.forwarded = processed ++ next.queued ++ skipped ++ next.pending)
    (offered : next.pending ≠ [] → next.reader ≠ .returned → skipped = [])
    (unlost : next.pending ≠ [] → next.lost = [])
    (lost : ∀ index ∈ next.lost, (processed ++ next.queued).length ≤ index) :
    TapSound settings processed skipped next where
  flow := flow
  skips _ := overflowed
  offered := offered
  unlost := unlost
  lost := lost
  gaps _ := overflowed
  counted _ := counted
  observed whole := by simp [overflowed] at whole
  complete whole := by simp [overflowed] at whole
  stopped whole := by simp [overflowed] at whole

/-- Setting the flag keeps whatever else holds. -/
theorem markIncomplete (flow : next.forwarded = processed ++ next.queued ++ skipped ++ next.pending)
    (offered : next.pending ≠ [] → next.reader ≠ .returned → skipped = [])
    (unlost : next.pending ≠ [] → next.lost = [])
    (lost : ∀ index ∈ next.lost, (processed ++ next.queued).length ≤ index)
    (counted : next.overflowed = true → 0 < next.session.droppedMessages) :
    TapSound settings processed skipped next.markIncomplete := by
  obtain ⟨session, marked, -, more, fresh⟩ := next.markIncomplete_cases
  rw [marked]
  refine of_overflowed rfl ?_ flow offered unlost lost
  cases overflowed : next.overflowed with
  | false => exact fresh overflowed
  | true => exact Nat.lt_of_lt_of_le (counted overflowed) more

variable (sound : TapSound settings processed skipped capture)
include sound

theorem straight (whole : capture.overflowed = false) : skipped = [] := by
  by_contra some
  simp [sound.skips some] at whole

theorem lossless (whole : capture.overflowed = false) : capture.lost = [] := by
  by_contra some
  simp [sound.gaps some] at whole

theorem forwardOnly (polling : capture.phase = .polling) (overflowed : capture.overflowed = true) (bytes : List UInt8) :
    TapSound settings processed (skipped ++ [bytes]) (capture.forwardOnly bytes) := by
  have flow := sound.flow
  rw [ResponseCapture.pending_of_polling polling, List.append_nil] at flow
  have silent : (capture.forwardOnly bytes).pending = [] := ResponseCapture.pending_of_polling polling
  refine of_overflowed overflowed (sound.counted overflowed) ?_ (absurd silent) (absurd silent) ?_
  · rw [silent, ResponseCapture.forwardOnly, flow]
    simp [ResponseCapture.queued]
  · intro index member
    rcases List.mem_append.1 member with earlier | here
    · exact sound.lost index earlier
    · obtain rfl := List.mem_singleton.1 here
      have length := congrArg List.length flow
      change (processed ++ capture.queued).length ≤ capture.forwarded.length
      simp only [List.length_append] at length ⊢
      omega

theorem count (polling : capture.phase = .polling) (whole : capture.overflowed = false) (bytes : List UInt8) :
    TapSound settings processed [] (capture.count settings bytes) := by
  have flow := sound.flow
  have lossless := sound.lossless whole
  rw [ResponseCapture.pending_of_polling polling, sound.straight whole, List.append_nil, List.append_nil] at flow
  have observed : min (capture.observedLength + bytes.length) maxObservedLength =
      min (capture.forwarded ++ [bytes]).flatten.length maxObservedLength := by
    have before := sound.observed whole
    rw [List.flatten_append, List.length_append, List.flatten_singleton]
    omega
  unfold ResponseCapture.count
  dsimp only
  split
  case h_1 endless =>
    constructor
    case flow => simp [ResponseCapture.queued, ResponseCapture.pending, flow]
    case complete =>
      intro _ complete
      have atEnd := sound.complete whole complete
      rwa [ResponseCapture.AtEnd, endless] at atEnd ⊢
    case observed => exact fun _ => observed
    all_goals simp [lossless, whole]
  case h_2 expected declared =>
    split
    case isTrue =>
      refine markIncomplete ?_ (fun _ _ => rfl) (fun _ => lossless) (by simp [lossless]) (by simp [whole])
      simp [ResponseCapture.queued, ResponseCapture.pending, flow]
    case isFalse =>
      constructor
      case flow => simp [ResponseCapture.queued, ResponseCapture.pending, flow]
      case complete =>
        intro _ complete
        rw [ResponseCapture.AtEnd, declared]
        exact of_decide_eq_true complete
      case observed => exact fun _ => observed
      all_goals simp [lossless, whole]

theorem failure : TapSound settings processed skipped capture.markIncomplete :=
  markIncomplete sound.flow sound.offered sound.unlost sound.lost sound.counted

theorem reachEof (polling : capture.phase = .polling) :
    TapSound settings processed skipped (capture.reachEof settings) := by
  have silent : (capture.reachEof settings).pending = [] := rfl
  constructor
  case flow =>
    have flow := sound.flow
    rwa [ResponseCapture.pending_of_polling polling] at flow
  case complete =>
    intro _ complete
    rw [ResponseCapture.AtEnd]
    cases declared : settings.expectedLength with
    | none => rfl
    | some expected =>
      rw [ResponseCapture.reachEof, declared] at complete
      exact (beq_iff_eq.1 complete).symm
  case offered => exact absurd silent
  case unlost => exact absurd silent
  case stopped => intro _ phase; simp [ResponseCapture.reachEof] at phase
  case skips => exact sound.skips
  case lost => exact sound.lost
  case gaps => exact sound.gaps
  case counted => exact sound.counted
  case observed => exact sound.observed

theorem trySend {bytes : List UInt8} (sending : capture.phase = .sending bytes) :
    ∃ others, TapSound settings processed others (capture.trySend bytes) := by
  have flow := sound.flow
  rw [ResponseCapture.pending, sending] at flow
  unfold ResponseCapture.trySend
  split
  case isTrue room =>
    have straight : skipped = [] := sound.offered (by simp [ResponseCapture.pending, sending]) room.1
    have queued : ResponseCapture.queued { capture with phase := .polling, channel := capture.channel ++ [bytes] } =
        capture.queued ++ [bytes] := by
      unfold ResponseCapture.queued
      cases reader : capture.reader with
      | receiving => rfl
      | holding held => rfl
      | returned => exact absurd reader room.1
    refine ⟨[], ?_⟩
    constructor
    case flow =>
      rw [queued]
      rw [straight] at flow
      simpa [ResponseCapture.pending] using flow
    case lost =>
      intro index member
      have none_lost : capture.lost = [] := sound.unlost (by simp [ResponseCapture.pending, sending])
      simp [none_lost] at member
    case stopped => intro _ phase; simp at phase
    case skips => exact absurd rfl
    case offered => exact fun _ _ => rfl
    case unlost => exact absurd rfl
    case gaps => exact sound.gaps
    case counted => exact sound.counted
    case observed => exact sound.observed
    case complete => exact sound.complete
  case isFalse =>
    refine ⟨skipped ++ [bytes], markIncomplete ?_ (absurd rfl) (absurd rfl) ?_ sound.counted⟩
    · simpa [ResponseCapture.pending, ResponseCapture.queued] using flow
    · intro index member
      rcases List.mem_append.1 member with earlier | here
      · exact sound.lost index earlier
      · obtain rfl := List.mem_singleton.1 here
        have length := congrArg List.length flow
        simp only [List.length_append, List.length_singleton] at length ⊢
        unfold ResponseCapture.queued at length ⊢
        dsimp only
        omega

theorem dropTap (idle : capture.pending = []) : TapSound settings processed skipped (capture.dropTap settings) := by
  have flow := sound.flow
  rw [idle] at flow
  unfold ResponseCapture.dropTap
  dsimp only
  split
  case isTrue => exact markIncomplete flow (absurd rfl) (absurd rfl) sound.lost sound.counted
  case isFalse kept =>
    refine ⟨flow, sound.skips, absurd rfl, absurd rfl, sound.lost, sound.gaps, sound.counted, sound.observed, sound.complete, ?_⟩
    intro _ _
    cases complete : capture.complete with
    | true => exact .inl rfl
    | false => simpa [complete, ResponseSettings.framedStream] using kept

theorem closeChannel (dropped : capture.phase = .dropped) :
    TapSound settings processed skipped { capture with phase := .closed } := by
  have flow := sound.flow
  rw [ResponseCapture.pending, dropped] at flow
  exact ⟨flow, sound.skips, absurd rfl, absurd rfl, sound.lost, sound.gaps, sound.counted, sound.observed, sound.complete,
    fun whole _ => sound.stopped whole (.inl dropped)⟩

/-- The reader may move chunks along, and skip chunks once the flag is set. -/
theorem read {processed' skipped' : List (List UInt8)} (keeps : ReaderKeeps capture next)
    (moved : processed' ++ next.queued ++ skipped' = processed ++ capture.queued ++ skipped)
    (skips : skipped' = skipped ∧ (next.reader ≠ .returned → capture.reader ≠ .returned) ∨
      capture.overflowed = true ∧ next.reader = .returned ∧
        (processed' ++ next.queued).length ≤ (processed ++ capture.queued).length) :
    TapSound settings processed' skipped' next := by
  have pending : next.pending = capture.pending := by rw [ResponseCapture.pending, keeps.phase, ResponseCapture.pending]
  have atEnd : next.AtEnd settings ↔ capture.AtEnd settings := by
    rw [ResponseCapture.AtEnd, keeps.observedLength, keeps.ended, ResponseCapture.AtEnd]
  constructor
  case flow => rw [keeps.forwarded, moved, pending, ← sound.flow]
  case skips =>
    rw [keeps.overflowed]
    rcases skips with ⟨rfl, -⟩ | ⟨overflowed, -⟩
    · exact sound.skips
    · exact fun _ => overflowed
  case offered =>
    rw [pending]
    intro sending receives
    rcases skips with ⟨rfl, received⟩ | ⟨-, returned, -⟩
    · exact sound.offered sending (received receives)
    · exact absurd returned receives
  case lost =>
    rw [keeps.lost]
    intro index member
    have before := sound.lost index member
    rcases skips with ⟨rfl, -⟩ | ⟨-, -, shorter⟩
    · rwa [List.append_cancel_right moved]
    · exact Nat.le_trans shorter before
  case unlost => rw [pending, keeps.lost]; exact sound.unlost
  case gaps => rw [keeps.lost, keeps.overflowed]; exact sound.gaps
  case counted =>
    rw [keeps.overflowed]
    exact fun overflowed => Nat.lt_of_lt_of_le (sound.counted overflowed) keeps.dropped
  case observed => rw [keeps.overflowed, keeps.observedLength, keeps.forwarded]; exact sound.observed
  case complete => rw [keeps.overflowed, keeps.complete, atEnd]; exact sound.complete
  case stopped => rw [keeps.overflowed, keeps.phase, keeps.complete]; exact sound.stopped

end TapSound

/-! ## The reader -/

/-- The reader has recorded what it has processed. -/
def Reading (settings : ResponseSettings) (processed : List (List UInt8)) (capture : ResponseCapture) : Prop :=
  Recounts capture.session (settings.readContents processed) ∧
    match settings.kind with
    | .json => capture.captured.length ≤ maxFrameBytes ∧
        (capture.overflowed = false → capture.tooLarge = false → capture.captured = processed.flatten)
    | .sse => capture.decoder = (feed SseDecoder.push .default processed).1

/-- It gave up and that is counted, or the tap had closed without a flag and it recorded the whole body. -/
def Returned (settings : ResponseSettings) (processed : List (List UInt8)) (capture : ResponseCapture) : Prop :=
  (capture.session.handed.map messageContent = (settings.readContents processed).reduceOption ∧
      0 < capture.session.droppedMessages) ∨
    (capture.phase = .closed ∧ capture.overflowed = false ∧
      Recounts capture.session (settings.bodyContents processed) ∧
      (settings.kind = .json → processed.flatten.length ≤ maxFrameBytes))

def ReaderSound (settings : ResponseSettings) (processed : List (List UInt8)) (capture : ResponseCapture) : Prop :=
  match capture.reader with
  | .returned => Returned settings processed capture
  | _ => Reading settings processed capture

section
variable {settings : ResponseSettings} {processed : List (List UInt8)} {capture next : ResponseCapture}

theorem Reading.tap (reading : Reading settings processed capture) (keeps : TapKeeps capture next) :
    Reading settings processed next := by
  obtain ⟨recounts, held⟩ := reading
  refine ⟨⟨by rw [keeps.handed, recounts.handed], Nat.le_trans recounts.counted keeps.dropped⟩, ?_⟩
  cases kind : settings.kind with
  | json =>
    rw [kind] at held
    dsimp only at held ⊢
    rw [keeps.captured, keeps.tooLarge]
    exact ⟨held.1, fun whole => held.2 (keeps.overflowed whole)⟩
  | sse =>
    rw [kind] at held
    exact keeps.decoder.trans held

theorem Returned.tap (returned : Returned settings processed capture) (keeps : TapKeeps capture next) :
    Returned settings processed next := by
  rcases returned with ⟨handed, dropped⟩ | whole
  · exact .inl ⟨by rw [keeps.handed, handed], Nat.lt_of_lt_of_le dropped keeps.dropped⟩
  · rw [keeps.isOpen whole.1]
    exact .inr whole

theorem ReaderSound.tap (sound : ReaderSound settings processed capture) (keeps : TapKeeps capture next) :
    ReaderSound settings processed next := by
  unfold ReaderSound at sound ⊢
  rw [keeps.reader]
  cases reader : capture.reader with
  | receiving => exact Reading.tap (by rwa [reader] at sound) keeps
  | holding bytes => exact Reading.tap (by rwa [reader] at sound) keeps
  | returned => exact Returned.tap (by rwa [reader] at sound) keeps

theorem ReaderSound.reading (sound : ReaderSound settings processed capture) (receives : capture.reader ≠ .returned) :
    Reading settings processed capture := by
  unfold ReaderSound at sound
  cases reader : capture.reader with
  | receiving => rwa [reader] at sound
  | holding bytes => rwa [reader] at sound
  | returned => exact absurd reader receives

theorem ReaderSound.of_reading (reading : Reading settings processed next) (receiving : next.reader = .receiving) :
    ReaderSound settings processed next := by
  rw [ReaderSound, receiving]
  exact reading

end

namespace ResponseSession

theorem recordMessage_dropped (settings : ResponseSettings) (session : ResponseSession) (bytes : List UInt8) :
    session.droppedMessages ≤ (session.recordMessage settings bytes).droppedMessages := by
  unfold recordMessage
  dsimp only
  split
  · exact Nat.le_refl _
  · exact Nat.le_succ _

theorem recordSseEvents_dropped (settings : ResponseSettings) (session : ResponseSession) (events : List SseEvent) :
    session.droppedMessages ≤ (session.recordSseEvents settings events).droppedMessages := by
  induction events generalizing session with
  | nil => exact Nat.le_refl _
  | cons event rest ih =>
    refine Nat.le_trans ?_ (ih (session.recordSseEvent settings event))
    cases event with
    | json bytes => exact recordMessage_dropped settings session bytes
    | oversized => exact Nat.le_succ _
    | incomplete => exact Nat.le_succ _

end ResponseSession

/-! ## Steps -/

namespace TapKeeps

variable {settings : ResponseSettings} {capture : ResponseCapture}

theorem of_open (isOpen : capture.phase ≠ .closed) {next : ResponseCapture}
    (same : next.reader = capture.reader ∧ next.captured = capture.captured ∧ next.tooLarge = capture.tooLarge ∧
      next.decoder = capture.decoder ∧ next.session = capture.session ∧ next.overflowed = capture.overflowed) :
    TapKeeps capture next := by
  obtain ⟨reader, captured, tooLarge, decoder, session, overflowed⟩ := same
  exact ⟨reader, captured, tooLarge, decoder, by rw [session], by rw [session], fun whole => overflowed ▸ whole,
    fun closed => absurd closed isOpen⟩

theorem markIncomplete {next : ResponseCapture} (keeps : TapKeeps capture next) (isOpen : capture.phase ≠ .closed) :
    TapKeeps capture next.markIncomplete := by
  obtain ⟨session, marked, handed, more, -⟩ := next.markIncomplete_cases
  rw [marked]
  exact ⟨keeps.reader, keeps.captured, keeps.tooLarge, keeps.decoder, handed.trans keeps.handed,
    Nat.le_trans keeps.dropped more, fun whole => by simp at whole, fun closed => absurd closed isOpen⟩

theorem count (isOpen : capture.phase ≠ .closed) (bytes : List UInt8) :
    TapKeeps capture (capture.count settings bytes) := by
  unfold ResponseCapture.count
  dsimp only
  split
  · exact of_open isOpen ⟨rfl, rfl, rfl, rfl, rfl, rfl⟩
  · split
    · exact markIncomplete (of_open isOpen ⟨rfl, rfl, rfl, rfl, rfl, rfl⟩) isOpen
    · exact of_open isOpen ⟨rfl, rfl, rfl, rfl, rfl, rfl⟩

theorem trySend (isOpen : capture.phase ≠ .closed) (bytes : List UInt8) :
    TapKeeps capture (capture.trySend bytes) := by
  unfold ResponseCapture.trySend
  split
  · exact of_open isOpen ⟨rfl, rfl, rfl, rfl, rfl, rfl⟩
  · exact markIncomplete (of_open isOpen ⟨rfl, rfl, rfl, rfl, rfl, rfl⟩) isOpen

theorem dropTap (isOpen : capture.phase ≠ .closed) : TapKeeps capture (capture.dropTap settings) := by
  unfold ResponseCapture.dropTap
  dsimp only
  split
  · exact markIncomplete (of_open isOpen ⟨rfl, rfl, rfl, rfl, rfl, rfl⟩) isOpen
  · exact of_open isOpen ⟨rfl, rfl, rfl, rfl, rfl, rfl⟩

end TapKeeps

section
variable {settings : ResponseSettings} {processed skipped : List (List UInt8)} {capture : ResponseCapture}

/-- Some processed and some skipped chunks account for the state. -/
def CaptureSound (settings : ResponseSettings) (capture : ResponseCapture) : Prop :=
  ∃ processed skipped, TapSound settings processed skipped capture ∧ ReaderSound settings processed capture

namespace CaptureSound

variable (tap : TapSound settings processed skipped capture) (reader : ReaderSound settings processed capture)
include tap reader

theorem unchanged : CaptureSound settings capture := ⟨_, _, tap, reader⟩

theorem chunk (bytes : List UInt8) : CaptureSound settings (capture.perform settings (.chunk bytes)) := by
  rw [ResponseCapture.perform]
  split
  case isFalse => exact unchanged tap reader
  case isTrue polling =>
    have isOpen : capture.phase ≠ .closed := by simp [polling]
    split
    case isTrue overflowed =>
      exact ⟨_, _, tap.forwardOnly polling overflowed bytes, reader.tap (.of_open isOpen ⟨rfl, rfl, rfl, rfl, rfl, rfl⟩)⟩
    case isFalse whole =>
      exact ⟨_, _, tap.count polling (by simpa using whole) bytes, reader.tap (.count isOpen bytes)⟩

theorem failure : CaptureSound settings (capture.perform settings .failure) := by
  rw [ResponseCapture.perform]
  split
  case isFalse => exact unchanged tap reader
  case isTrue polling =>
    have isOpen : capture.phase ≠ .closed := by simp [polling]
    exact ⟨_, _, tap.failure, reader.tap (.markIncomplete (.of_open isOpen ⟨rfl, rfl, rfl, rfl, rfl, rfl⟩) isOpen)⟩

theorem eof : CaptureSound settings (capture.perform settings .eof) := by
  rw [ResponseCapture.perform]
  split
  case isFalse => exact unchanged tap reader
  case isTrue polling =>
    have isOpen : capture.phase ≠ .closed := by simp [polling]
    exact ⟨_, _, tap.reachEof polling, reader.tap (.of_open isOpen ⟨rfl, rfl, rfl, rfl, rfl, rfl⟩)⟩

theorem send : CaptureSound settings (capture.perform settings .send) := by
  rw [ResponseCapture.perform]
  split
  case h_2 => exact unchanged tap reader
  case h_1 bytes sending =>
    have isOpen : capture.phase ≠ .closed := by simp [sending]
    obtain ⟨others, tap'⟩ := tap.trySend sending
    exact ⟨_, others, tap', reader.tap (.trySend isOpen bytes)⟩

theorem dropBody : CaptureSound settings (capture.perform settings .dropBody) := by
  rw [ResponseCapture.perform]
  split
  case isFalse => exact unchanged tap reader
  case isTrue idle =>
    have isOpen : capture.phase ≠ .closed := by rcases idle with phase | phase <;> simp [phase]
    have silent : capture.pending = [] := by rcases idle with phase | phase <;> simp [ResponseCapture.pending, phase]
    exact ⟨_, _, tap.dropTap silent, reader.tap (.dropTap isOpen)⟩

theorem closeChannel : CaptureSound settings (capture.perform settings .closeChannel) := by
  rw [ResponseCapture.perform]
  split
  case isFalse => exact unchanged tap reader
  case isTrue dropped =>
    have isOpen : capture.phase ≠ .closed := by simp [dropped]
    exact ⟨_, _, tap.closeChannel dropped, reader.tap (.of_open isOpen ⟨rfl, rfl, rfl, rfl, rfl, rfl⟩)⟩

theorem receive : CaptureSound settings (capture.perform settings .receive) := by
  rw [ResponseCapture.perform]
  split
  case h_2 => exact unchanged tap reader
  case h_1 bytes rest receiving channel =>
    have reading := reader.reading (by simp [receiving])
    have queued : capture.queued = bytes :: rest := by rw [ResponseCapture.queued, receiving, channel]
    refine ⟨processed, skipped, tap.read ⟨rfl, rfl, rfl, rfl, rfl, rfl, rfl, Nat.le_refl _⟩ ?_ (.inl ⟨rfl, ?_⟩), reading⟩
    · rw [queued]
      rfl
    · simp [receiving]

/-- The chunk that the reader holds becomes the last that it has processed. -/
theorem handleJson {bytes : List UInt8} (holding : capture.reader = .holding bytes) (json : settings.kind = .json) :
    CaptureSound settings (capture.handleJson bytes) := by
  have ⟨recounts, held⟩ := reader.reading (by simp [holding])
  rw [json] at held
  obtain ⟨capped, gathered⟩ := held
  have moved : (processed ++ [bytes]) ++ capture.channel ++ skipped = processed ++ capture.queued ++ skipped := by
    simp [ResponseCapture.queued, holding]
  have unread : settings.readContents (processed ++ [bytes]) = settings.readContents processed := by
    rw [ResponseSettings.readContents, json, ResponseSettings.readContents, json]
  have kept : skipped = skipped ∧ (ReaderPhase.receiving ≠ .returned → capture.reader ≠ .returned) := by
    simp [holding]
  rw [← unread] at recounts
  unfold ResponseCapture.handleJson
  dsimp only
  split
  case isTrue open' =>
    split
    case isTrue fits =>
      refine ⟨processed ++ [bytes], skipped, tap.read ⟨rfl, rfl, rfl, rfl, rfl, rfl, rfl, Nat.le_refl _⟩ moved (.inl kept),
        .of_reading ⟨recounts, ?_⟩ rfl⟩
      rw [json]
      refine ⟨by simpa using fits, fun whole small => ?_⟩
      rw [List.flatten_append, gathered whole small, List.flatten_singleton]
    case isFalse =>
      refine ⟨processed ++ [bytes], skipped, tap.read ⟨rfl, rfl, rfl, rfl, rfl, rfl, rfl, Nat.le_refl _⟩ moved (.inl kept),
        .of_reading ⟨recounts, ?_⟩ rfl⟩
      rw [json]
      exact ⟨Nat.zero_le _, fun _ small => by simp at small⟩
  case isFalse closed =>
    refine ⟨processed ++ [bytes], skipped, tap.read ⟨rfl, rfl, rfl, rfl, rfl, rfl, rfl, Nat.le_refl _⟩ moved (.inl kept),
      .of_reading ⟨recounts, ?_⟩ rfl⟩
    rw [json]
    refine ⟨capped, fun whole small => ?_⟩
    dsimp only at whole small
    simp [whole, small] at closed

theorem handleSse {bytes : List UInt8} (holding : capture.reader = .holding bytes) (sse : settings.kind = .sse) :
    CaptureSound settings (capture.handleSse settings bytes) := by
  have ⟨recounts, held⟩ := reader.reading (by simp [holding])
  rw [sse] at held
  have queued : capture.queued = bytes :: capture.channel := by rw [ResponseCapture.queued, holding]
  unfold ResponseCapture.handleSse
  split
  case isTrue overflowed =>
    refine ⟨processed, capture.queued ++ skipped, tap.read ⟨rfl, rfl, rfl, rfl, rfl, rfl, rfl, Nat.le_refl _⟩ ?_
      (.inr ⟨overflowed, rfl, ?_⟩), .inl ⟨recounts.handed, tap.counted overflowed⟩⟩
    · simp [ResponseCapture.queued, ResponseCapture.leave]
    · simp [ResponseCapture.queued, ResponseCapture.leave]
  case isFalse =>
    dsimp only
    refine ⟨processed ++ [bytes], skipped, tap.read ⟨rfl, rfl, rfl, rfl, rfl, rfl, rfl, ?_⟩ ?_ (.inl ⟨rfl, ?_⟩),
      .of_reading ⟨?_, ?_⟩ rfl⟩
    · exact capture.session.recordSseEvents_dropped settings _
    · rw [queued]
      simp [ResponseCapture.queued]
    · simp [holding]
    · rw [settings.readContents_concat sse, ← show capture.decoder = _ from held]
      exact recounts.recordSseEvents settings _
    · rw [sse, feed_append, held]
      rfl

theorem handle : CaptureSound settings (capture.perform settings .handle) := by
  rw [ResponseCapture.perform]
  split
  case h_1 bytes holding json => exact handleJson tap reader holding json
  case h_2 bytes holding sse => exact handleSse tap reader holding sse
  case h_3 => exact unchanged tap reader

omit reader in
/-- At the end of the channel nothing is waiting any more. -/
theorem finished {session : ResponseSession} (receiving : capture.reader = .receiving) (channel : capture.channel = [])
    (dropped : capture.session.droppedMessages ≤ session.droppedMessages)
    (returned : Returned settings processed { capture with session := session }) :
    CaptureSound settings { capture with session := session }.leave := by
  have queued : capture.queued = [] := by rw [ResponseCapture.queued, receiving, channel]
  refine ⟨processed, skipped, tap.read ⟨rfl, rfl, rfl, rfl, rfl, rfl, rfl, dropped⟩ ?_ (.inl ⟨rfl, absurd rfl⟩), returned⟩
  rw [queued]
  rfl

/-- The flag that the reader sees at the end of the channel is final. -/
theorem finishJson (receiving : capture.reader = .receiving) (channel : capture.channel = [])
    (closed : capture.phase = .closed) (json : settings.kind = .json) :
    CaptureSound settings (capture.finishJson settings) := by
  have ⟨recounts, held⟩ := reader.reading (by simp [receiving])
  rw [json] at held
  obtain ⟨capped, gathered⟩ := held
  have unread : settings.readContents processed = [] := by rw [ResponseSettings.readContents, json]
  have body : settings.bodyContents processed =
      if processed.flatten = [] then [] else [settings.content processed.flatten] := by
    rw [ResponseSettings.bodyContents, json]
  unfold ResponseCapture.finishJson
  dsimp only
  split
  case isTrue records =>
    simp only [Bool.and_eq_true, Bool.not_eq_true', List.isEmpty_eq_false_iff] at records
    obtain ⟨⟨small, whole⟩, filled⟩ := records
    have all := gathered whole small
    refine finished tap receiving channel (ResponseSession.recordMessage_dropped settings _ _)
      (.inr ⟨closed, whole, ?_, fun _ => all ▸ capped⟩)
    rw [body, if_neg (all ▸ filled), ← all]
    exact (unread ▸ recounts).recordMessage settings capture.captured
  case isFalse silent =>
    split
    case isTrue => exact finished tap receiving channel (Nat.le_succ _) (.inl ⟨recounts.handed, Nat.succ_pos _⟩)
    case isFalse small =>
      refine finished tap receiving channel (Nat.le_refl _) ?_
      by_cases overflowed : capture.overflowed = true
      · exact .inl ⟨recounts.handed, tap.counted overflowed⟩
      · have whole : capture.overflowed = false := by simpa using overflowed
        have all := gathered whole (by simpa using small)
        have empty : capture.captured = [] := by simpa [whole, small] using silent
        refine .inr ⟨closed, whole, ?_, fun _ => all ▸ capped⟩
        rw [body, if_pos (all ▸ empty)]
        exact unread ▸ recounts

theorem finishSse (receiving : capture.reader = .receiving) (channel : capture.channel = [])
    (closed : capture.phase = .closed) (sse : settings.kind = .sse) :
    CaptureSound settings (capture.finishSse settings) := by
  have ⟨recounts, held⟩ := reader.reading (by simp [receiving])
  rw [sse] at held
  unfold ResponseCapture.finishSse
  dsimp only
  split
  case isTrue whole =>
    refine finished tap receiving channel (ResponseSession.recordSseEvents_dropped settings _ _)
      (.inr ⟨closed, by simpa using whole, ?_, fun json => by simp [sse] at json⟩)
    rw [settings.bodyContents_sse sse, ← show capture.decoder = _ from held]
    exact recounts.recordSseEvents settings _
  case isFalse overflowed =>
    exact finished tap receiving channel (Nat.le_refl _)
      (.inl ⟨recounts.handed, tap.counted (by simpa using overflowed)⟩)

theorem finish : CaptureSound settings (capture.perform settings .finish) := by
  rw [ResponseCapture.perform]
  split
  case isFalse => exact unchanged tap reader
  case isTrue ready =>
    obtain ⟨receiving, channel, closed⟩ := ready
    split
    case h_1 json => exact finishJson tap reader receiving channel closed json
    case h_2 sse => exact finishSse tap reader receiving channel closed sse

theorem perform (step : ResponseStep) : CaptureSound settings (capture.perform settings step) := by
  cases step with
  | chunk bytes => exact chunk tap reader bytes
  | failure => exact failure tap reader
  | eof => exact eof tap reader
  | send => exact send tap reader
  | dropBody => exact dropBody tap reader
  | closeChannel => exact closeChannel tap reader
  | receive => exact receive tap reader
  | handle => exact handle tap reader
  | finish => exact finish tap reader

end CaptureSound

end

theorem captureSound_start (settings : ResponseSettings) : CaptureSound settings (.start settings) := by
  refine ⟨[], [], ResponseCapture.start_sound settings, ?_, ?_⟩
  · cases kind : settings.kind <;> simp only [ResponseSettings.readContents, kind] <;> exact .start
  · cases settings.kind with
    | json => exact ⟨Nat.zero_le _, fun _ _ => rfl⟩
    | sse => rfl

theorem captureSound_run (settings : ResponseSettings) (steps : List ResponseStep) :
    CaptureSound settings (ResponseCapture.run settings steps) := by
  unfold ResponseCapture.run
  induction steps using List.reverseRecOn with
  | nil => exact captureSound_start settings
  | append_singleton steps step ih =>
    obtain ⟨processed, skipped, tap, reader⟩ := ih
    rw [List.foldl_append]
    exact CaptureSound.perform tap reader step

/-! ## Whole exchanges -/

section
variable {settings : ResponseSettings} {processed skipped : List (List UInt8)} {capture : ResponseCapture}

/-- Where no flag was set before the channel closed, the reader has seen the whole body to its end. -/
theorem TapSound.whole (tap : TapSound settings processed skipped capture) (closed : capture.phase = .closed)
    (returned : capture.reader = .returned) (whole : capture.overflowed = false) : capture.forwarded = processed := by
  have flow := tap.flow
  rw [tap.straight whole, ResponseCapture.queued, returned, ResponseCapture.pending, closed] at flow
  simpa using flow

theorem TapSound.reachedEnd (tap : TapSound settings processed skipped capture) (closed : capture.phase = .closed)
    (whole : capture.overflowed = false) (json : settings.kind = .json)
    (fits : capture.forwarded.flatten.length ≤ maxFrameBytes) : capture.ReachedEnd settings := by
  have small : maxFrameBytes ≤ maxObservedLength := by decide
  have observed := tap.observed whole
  rw [Nat.min_eq_left (Nat.le_trans fits small)] at observed
  have complete : capture.complete = true := by
    rcases tap.stopped whole (.inr closed) with complete | ⟨sse, -⟩
    · exact complete
    · simp [json] at sse
  have atEnd := tap.complete whole complete
  unfold ResponseCapture.AtEnd at atEnd
  unfold ResponseCapture.ReachedEnd
  split <;> rename_i declared <;> rw [declared] at atEnd
  · exact atEnd
  · rw [← observed, atEnd]

/-- The exchange has recorded what a prefix of the body says, up to the first chunk that was lost. -/
structure RecordedPart (settings : ResponseSettings) (capture : ResponseCapture) (processed : List (List UInt8)) :
    Prop where
  handed : capture.session.handed.map messageContent = (settings.readContents processed).reduceOption
  counted : capture.reader = .returned → 0 < capture.session.droppedMessages
  forwarded : processed <+: capture.forwarded
  lost : ∀ index ∈ capture.lost, processed.length ≤ index

/-- The exchange has recorded what the whole body says. -/
structure RecordedWhole (settings : ResponseSettings) (capture : ResponseCapture) : Prop where
  recounts : Recounts capture.session (settings.bodyContents capture.forwarded)
  lossless : capture.lost = []
  reachedEnd : settings.kind = .json → capture.ReachedEnd settings

theorem CaptureSound.recorded (sound : CaptureSound settings capture) :
    (∃ processed, RecordedPart settings capture processed) ∨ RecordedWhole settings capture := by
  obtain ⟨processed, skipped, tap, reader⟩ := sound
  have forwarded : processed <+: capture.forwarded := by
    rw [tap.flow, List.append_assoc, List.append_assoc]
    exact List.prefix_append _ _
  have lost : ∀ index ∈ capture.lost, processed.length ≤ index := by
    intro index member
    refine Nat.le_trans ?_ (tap.lost index member)
    rw [List.length_append]
    exact Nat.le_add_right _ _
  by_cases returned : capture.reader = .returned
  · rw [ReaderSound, returned] at reader
    rcases reader with ⟨handed, counted⟩ | ⟨closed, whole, recounts, fits⟩
    · exact .inl ⟨processed, handed, fun _ => counted, forwarded, lost⟩
    · have all := tap.whole closed returned whole
      rw [← all] at recounts fits
      exact .inr ⟨recounts, tap.lossless whole, fun json => tap.reachedEnd closed whole json (fits json)⟩
  · exact .inl ⟨processed, (reader.reading returned).1.handed, fun done => absurd done returned, forwarded, lost⟩

theorem RecordedPart.handed_prefix {processed chunks : List (List UInt8)} (part : RecordedPart settings capture processed)
    (forwarded : processed <+: chunks) :
    capture.session.handed.map messageContent <+: (settings.bodyContents chunks).reduceOption := by
  obtain ⟨more, rfl⟩ := forwarded
  obtain ⟨rest, body⟩ := settings.readContents_prefix processed more
  rw [part.handed, ← body, List.reduceOption_append]
  exact List.prefix_append _ _

end

/-- What an exchange records of its response, for any chunks, endings and interleaving. -/
theorem response_capture_accounted (settings : ResponseSettings) (steps : List ResponseStep) :
    let capture := ResponseCapture.run settings steps
    let handed := capture.session.handed.map messageContent
    (capture.reader = .returned → capture.session.droppedMessages = 0 →
      settings.bodyContents capture.forwarded = handed.map some ∧
        (settings.kind = .json → capture.ReachedEnd settings)) ∧
    handed <+: (settings.bodyContents capture.forwarded).reduceOption ∧
    (settings.kind = .json → handed ≠ [] → capture.ReachedEnd settings) ∧
    ∃ kept, kept <+: capture.forwarded ∧ (∀ index ∈ capture.lost, kept.length ≤ index) ∧
      handed <+: (settings.bodyContents kept).reduceOption := by
  intro capture handed
  rcases (captureSound_run settings steps).recorded with ⟨processed, part⟩ | whole
  · refine ⟨fun returned spared => ?_, part.handed_prefix part.forwarded, fun json some => ?_,
      processed, part.forwarded, part.lost, part.handed_prefix (List.prefix_refl _)⟩
    · exact absurd (spared ▸ part.counted returned) (Nat.lt_irrefl 0)
    · -- A JSON body is recorded as a whole or not at all.
      have silent : settings.readContents processed = [] := by rw [ResponseSettings.readContents, json]
      exact absurd (part.handed.trans (by rw [silent]; rfl)) some
  · have all : handed = (settings.bodyContents capture.forwarded).reduceOption := whole.recounts.handed
    refine ⟨fun _ spared => ⟨?_, whole.reachedEnd⟩, all ▸ List.prefix_refl _, fun json _ => whole.reachedEnd json,
      capture.forwarded, List.prefix_refl _, ?_, all ▸ List.prefix_refl _⟩
    · rw [whole.recounts.complete spared, List.map_map]
      rfl
    · rw [show capture.lost = [] from whole.lossless]
      exact fun _ member => absurd member List.not_mem_nil

/-- The reader sees the flag that the tap sets when it is dropped before the end of the body. -/
example :
    let settings : ResponseSettings := ⟨.json, none, fun _ => some .null, fun _ => ⟨0, 0⟩⟩
    let steps (ending : List ResponseStep) : List ResponseStep :=
      [.chunk [49], .send, .receive] ++ ending ++ [.dropBody, .closeChannel, .handle, .finish]
    ((ResponseCapture.run settings (steps [.eof])).session.handed.length = 1 ∧
      (ResponseCapture.run settings (steps [.eof])).session.droppedMessages = 0) ∧
    ((ResponseCapture.run settings (steps [])).session.handed = [] ∧
      (ResponseCapture.run settings (steps [])).session.droppedMessages = 1) := by decide

end McpTracer.Proxy
