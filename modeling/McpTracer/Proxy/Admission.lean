import McpTracer.Foundation.Registry
import McpTracer.Foundation.Transducer

/-! Which HTTP exchanges are recorded, and into which recording.

An exchange is admitted under a capture permit and joins the recording of its key or opens one under
a writer permit. The registry is only looked at under its lock, so that a request, the tasks that
release leases, the reaper and the shutdown take turns in any order. A recording has a number that
is never used again.
-/

set_option autoImplicit false

namespace McpTracer.Proxy
open McpTracer.Foundation

inductive LogicalSessionKey where
  | established (id : String)
  | statelessGroup (group : String)
  | provisional (n : Nat)
  deriving DecidableEq

/-- The limits of a recording run, and whether a header groups requests without a session. -/
structure RecordingLimits where
  maxRecordingSessions : Nat
  maxCaptureExchanges : Nat
  recordingIdle : Nat
  groupsStateless : Bool

/-- What admission reads of a request: the values of two headers that are there as text, and its method. -/
structure RequestHead where
  mcpSessionId : Option String
  statelessGroup : Option String
  isDelete : Bool

structure SessionEntry where
  sessionId : Nat
  activeExchanges : Nat
  lastActivity : Nat
  retiring : Bool
  /-- Exchanges that were refused while the recording was there. -/
  droppedMessages : Nat

namespace SessionEntry

/-- An exchange joins a recording. -/
def join (close : Bool) (entry : SessionEntry) : SessionEntry :=
  { entry with
    activeExchanges := entry.activeExchanges + 1
    retiring := entry.retiring || close }

/-- A lease is released. -/
def leave (close : Bool) (now : Nat) (entry : SessionEntry) : SessionEntry :=
  { entry with
    activeExchanges := entry.activeExchanges - 1
    lastActivity := now
    retiring := entry.retiring || close }

/-- An exchange for the recording was refused. -/
def miss (close : Bool) (entry : SessionEntry) : SessionEntry :=
  { entry with
    droppedMessages := entry.droppedMessages + 1
    retiring := entry.retiring || close }

end SessionEntry

/-- How far an exchange has come. -/
inductive ExchangeStage where
  | arriving
  /-- Holds a capture permit. -/
  | permitted
  /-- Has retired what was idle. -/
  | resolving
  /-- Has no recording; the permit has not been given back yet. -/
  | unresolved
  | refused
  /-- Counted as omitted; a recording under the key may still have to be told. -/
  | counted
  /-- Forwarded without capture. -/
  | forwarded
  | leased (sessionId : Nat)
  /-- The last owner has dropped the lease. -/
  | releasing (sessionId : Nat)
  /-- The lease is off the entry, which may have to be finalized first. -/
  | cleaning (removed : Option Nat)
  | finished
  deriving DecidableEq

structure HttpExchange where
  key : LogicalSessionKey
  closeAfterExchange : Bool
  stage : ExchangeStage

structure HttpState where
  sessions : List (LogicalSessionKey × SessionEntry)
  /-- By their numbers, in the order they arrived. -/
  exchanges : List HttpExchange
  finalizing : List SessionEntry
  finalized : List Nat
  provisionalCounter : Nat
  nextSession : Nat
  writerSlots : Nat
  captureSlots : Nat
  omittedExchanges : Nat
  finalizationFailures : Nat
  /-- The shutdown has taken every capture permit. -/
  stopping : Bool

/-- What somebody does next; a step for which it is not the time does nothing. -/
inductive AdmissionStep where
  | arrive (head : RequestHead)
  | takePermit (exchange : Nat)
  | takeIdle (exchange : Nat) (now : Nat)
  /-- Opening the store may fail. -/
  | resolve (exchange : Nat) (now : Nat) (opens : Bool)
  | returnRefusedPermit (exchange : Nat)
  | countOmitted (exchange : Nat)
  | tellRefused (exchange : Nat)
  | dropLease (exchange : Nat)
  | release (exchange : Nat) (now : Nat)
  | returnPermit (exchange : Nat)
  | reapIdle (now : Nat)
  | finalize (sessionId : Nat) (succeeds : Bool)
  | takeCapturePermits
  | closeAll

/-- What happens to a recording. -/
inductive AdmissionEvent where
  | admitted (exchange sessionId : Nat)
  /-- An exchange after which the recording closes was admitted or refused. -/
  | closing (sessionId : Nat)

namespace HttpState

def start (limits : RecordingLimits) : HttpState where
  sessions := []
  exchanges := []
  finalizing := []
  finalized := []
  provisionalCounter := 0
  nextSession := 0
  writerSlots := limits.maxRecordingSessions
  captureSlots := limits.maxCaptureExchanges
  omittedExchanges := 0
  finalizationFailures := 0
  stopping := false

def sessionKeyForRequest (limits : RecordingLimits) (state : HttpState) (head : RequestHead) :
    HttpState × LogicalSessionKey :=
  match head.mcpSessionId.filter fun id => id ≠ "" with
  | some id => (state, .established id)
  | none =>
    match head.statelessGroup.filter fun group => limits.groupsStateless && group ≠ "" with
    | some group => (state, .statelessGroup group)
    | none =>
      ({ state with provisionalCounter := state.provisionalCounter + 1 }, .provisional state.provisionalCounter)

/-- A request without a key of its own closes its recording, and so does a deletion. -/
def closesAfter (head : RequestHead) : LogicalSessionKey → Bool
  | .provisional _ => true
  | .established _ => head.isDelete
  | .statelessGroup _ => head.isDelete

/-! ## The parts of a step -/

def move (state : HttpState) (id : Nat) (stage : ExchangeStage) : HttpState :=
  { state with exchanges := state.exchanges.modify id fun exchange => { exchange with stage := stage } }

/-- Entries leave the registry and belong to who finalizes them. -/
def retire (chosen : LogicalSessionKey → SessionEntry → Bool) (state : HttpState) : HttpState :=
  { state with
    sessions := state.sessions.filter fun entry => !chosen entry.1 entry.2
    finalizing := state.finalizing ++ (state.sessions.filter fun entry => chosen entry.1 entry.2).map Prod.snd }

def takeIdleSessions (limits : RecordingLimits) (now : Nat) (state : HttpState) : HttpState :=
  state.retire fun _ entry =>
    entry.activeExchanges = 0 && decide (limits.recordingIdle ≤ now - entry.lastActivity)

def amendEntry (key : LogicalSessionKey) (change : SessionEntry → SessionEntry) (state : HttpState) : HttpState :=
  { state with sessions := amend key change state.sessions }

/-- Retire the entry of a key if it is retiring and nobody is active. -/
def settle (key : LogicalSessionKey) (state : HttpState) : HttpState :=
  state.retire fun other entry => other = key && (entry.retiring && entry.activeExchanges = 0)

def closingEvents (close : Bool) (sessionId : Nat) : List AdmissionEvent :=
  if close then [.closing sessionId] else []

/-- Join the recording of the key, or open one. -/
def resolveSession (state : HttpState) (id : Nat) (exchange : HttpExchange) (now : Nat) (opens : Bool) :
    HttpState × List AdmissionEvent :=
  let close := exchange.closeAfterExchange
  match state.sessions.lookup exchange.key with
  | some entry =>
    if entry.retiring then (state.move id .unresolved, [])
    else
      ((state.amendEntry exchange.key (SessionEntry.join close)).move id (.leased entry.sessionId),
        .admitted id entry.sessionId :: closingEvents close entry.sessionId)
  | none =>
    if state.writerSlots = 0 then (state.move id .unresolved, [])
    else if opens then
      let entry : SessionEntry :=
        { sessionId := state.nextSession
          activeExchanges := 1
          lastActivity := now
          retiring := close
          droppedMessages := 0 }
      (({ state with
          sessions := (exchange.key, entry) :: state.sessions
          nextSession := state.nextSession + 1
          writerSlots := state.writerSlots - 1 }).move id (.leased state.nextSession),
        .admitted id state.nextSession :: closingEvents close state.nextSession)
    else (state.move id .unresolved, [])

/-- Tell the recording of the key, if there is one, that it misses an exchange. -/
def tellRefused (state : HttpState) (id : Nat) (exchange : HttpExchange) : HttpState × List AdmissionEvent :=
  let close := exchange.closeAfterExchange
  match state.sessions.lookup exchange.key with
  | none => (state.move id .forwarded, [])
  | some entry =>
    (((state.amendEntry exchange.key (SessionEntry.miss close)).settle exchange.key).move id .forwarded,
      closingEvents close entry.sessionId)

/-- Take a lease off its entry, which the task then finalizes if it was the last. -/
def releaseExchange (state : HttpState) (id : Nat) (exchange : HttpExchange) (now : Nat) : HttpState :=
  match state.sessions.lookup exchange.key with
  | none => state.move id (.cleaning none)
  | some entry =>
    let left := SessionEntry.leave exchange.closeAfterExchange now entry
    ((state.amendEntry exchange.key (SessionEntry.leave exchange.closeAfterExchange now)).settle exchange.key).move id
      (.cleaning (if left.retiring && left.activeExchanges = 0 then some entry.sessionId else none))

/-- The writer has finished; its permit is free again. -/
def finalizeSessionEntry (state : HttpState) (sessionId : Nat) (succeeds : Bool) : HttpState :=
  if sessionId ∈ state.finalizing.map SessionEntry.sessionId then
    { state with
      finalizing := state.finalizing.filter fun entry => entry.sessionId ≠ sessionId
      finalized := state.finalized ++ [sessionId]
      writerSlots := state.writerSlots + 1
      finalizationFailures := state.finalizationFailures + if succeeds then 0 else 1 }
  else state

/-- The removed entry, if any, has been finalized. -/
def cleaned (state : HttpState) (removed : Option Nat) : Bool :=
  removed.all fun sessionId => state.finalized.contains sessionId

/-! ## The steps -/

/-- What an exchange does in its stage. -/
def advance (limits : RecordingLimits) (state : HttpState) (id : Nat) (exchange : HttpExchange) :
    AdmissionStep → HttpState × List AdmissionEvent
  | .takePermit _ =>
    if exchange.stage = .arriving then
      if state.captureSlots = 0 then (state.move id .refused, [])
      else (({ state with captureSlots := state.captureSlots - 1 }).move id .permitted, [])
    else (state, [])
  | .takeIdle _ now =>
    if exchange.stage = .permitted then ((state.takeIdleSessions limits now).move id .resolving, [])
    else (state, [])
  | .resolve _ now opens =>
    if exchange.stage = .resolving then state.resolveSession id exchange now opens else (state, [])
  | .returnRefusedPermit _ =>
    if exchange.stage = .unresolved then
      (({ state with captureSlots := state.captureSlots + 1 }).move id .refused, [])
    else (state, [])
  | .countOmitted _ =>
    if exchange.stage = .refused then
      (({ state with omittedExchanges := state.omittedExchanges + 1 }).move id .counted, [])
    else (state, [])
  | .tellRefused _ =>
    if exchange.stage = .counted then state.tellRefused id exchange else (state, [])
  | .dropLease _ =>
    match exchange.stage with
    | .leased sessionId => (state.move id (.releasing sessionId), [])
    | _ => (state, [])
  | .release _ now =>
    match exchange.stage with
    | .releasing _ => (state.releaseExchange id exchange now, [])
    | _ => (state, [])
  | .returnPermit _ =>
    match exchange.stage with
    | .cleaning removed =>
      if state.cleaned removed then
        (({ state with captureSlots := state.captureSlots + 1 }).move id .finished, [])
      else (state, [])
    | _ => (state, [])
  | _ => (state, [])

def arrive (limits : RecordingLimits) (state : HttpState) (head : RequestHead) : HttpState :=
  let keyed := state.sessionKeyForRequest limits head
  { keyed.1 with exchanges := keyed.1.exchanges ++ [⟨keyed.2, closesAfter head keyed.2, .arriving⟩] }

/-- Whose step it is. -/
def mover : AdmissionStep → Option Nat
  | .takePermit id | .takeIdle id _ | .resolve id _ _ | .returnRefusedPermit id | .countOmitted id
  | .tellRefused id | .dropLease id | .release id _ | .returnPermit id => some id
  | _ => none

def perform (limits : RecordingLimits) (state : HttpState) (step : AdmissionStep) :
    HttpState × List AdmissionEvent :=
  match step with
  | .arrive head => (state.arrive limits head, [])
  | .reapIdle now => (state.takeIdleSessions limits now, [])
  | .finalize sessionId succeeds => (state.finalizeSessionEntry sessionId succeeds, [])
  | .takeCapturePermits =>
    if state.captureSlots = limits.maxCaptureExchanges then
      ({ state with captureSlots := 0, stopping := true }, [])
    else (state, [])
  | .closeAll => if state.stopping then (state.retire fun _ _ => true, []) else (state, [])
  | step =>
    match (mover step).bind fun id => state.exchanges[id]?.map fun exchange => (id, exchange) with
    | some (id, exchange) => state.advance limits id exchange step
    | none => (state, [])

/-- The state after some steps, and what happened to the recordings. -/
def run (limits : RecordingLimits) (steps : List AdmissionStep) : HttpState × List AdmissionEvent :=
  feed (perform limits) (.start limits) steps

end HttpState

end McpTracer.Proxy
