import BotCord.Gateway.RunTurn

/-!
# The dispatcher on one queue

`Dispatcher.handle`, its two queue disciplines and the re-wake timers, for the messages of one queue key; queues share only what the gate and the auth breaker answer, and these answers are free here. An action is what ends an await: the code runs from there to the next await. A call of `handle`, or of `runSerial` by a timer, has the id of its turn, and the transcript is kept by that id.
-/

namespace BotCord.Gateway

def MAX_BATCH_BUFFER_ENTRIES : ℕ := 40

def MAX_PARKS : ℕ := 3

/-- In milliseconds. -/
def MAX_WAIT_MS : ℤ := 30000

def authoredText (text : Option String) : Bool := text.any (trim · ≠ "")

def hasAuthoredText (m : InboxMessage) : Bool :=
  if authoredText m.text && m.envelope.isNone then true
  else match m.envelope.bind Envelope.payload with
    | some payload => authoredText payload.text || authoredText payload.body || authoredText payload.message
    | none => match m.itemList with
      | some items => items.any fun item => authoredText item.text
      | none => authoredText m.text

def hasMultimodalContent (m : InboxMessage) : Bool :=
  ((m.envelope.bind Envelope.payload).bind Payload.attachments).any (0 < ·) ||
    m.itemList.any fun items => items.any (·.type ≠ some 1)

def anyItem (test : InboxMessage → Bool) (raw : Option Raw) : Bool :=
  raw.any fun raw => (raw.batch.getD [raw.toInboxMessage]).any test

def isMultimodalOnlyMessage (msg : GatewayInboundMessage) : Bool :=
  anyItem hasMultimodalContent msg.raw && !anyItem hasAuthoredText msg.raw

/-- The await a call is at. `deferred`, `returned` and `threw` are its ends. -/
inductive CallPhase
  | deferring
  | deferred
  | observing
  | skipping
  | breaking
  | breakerReply
  | reporting
  | overflowing (dropped : TurnId)
  | working (turn : ℕ)
  | waiting
  | cancelling (gen : ℕ) (prev : ℕ)
  | superseded
  | running (turn : ℕ)
  | closing (failed : Bool)
  | acking
  | returned
  | threw
deriving DecidableEq

/-- Why the promise of a buffered entry was settled: the cap dropped it, its turn is over, or a turn has failed. -/
inductive Completion
  | dropped
  | done (turn : ℕ)
  | failed (turn : ℕ)

def Completion.rejected : Completion → Bool
  | .failed _ => true
  | _ => false

/-- `dispatch`: the message, merged with the deferred ones that the call has `taken`. -/
structure Call where
  rewake : Bool := false
  mode : QueueMode
  dispatch : BufferedSerialEntry
  taken : List TurnId := []
  phase : CallPhase
  completion : Option Completion := none
  records : List RecordKind := []

/-- A live re-wake timer, with the message it dispatches again. `since`: how many messages had joined the queue when the turn that set it started. -/
structure ParkTimer where
  id : ℕ
  entry : BufferedSerialEntry
  since : ℕ

/-- `QueueState`, with the live timers and some history: how many messages have `joined` the queue, the serial ones in that order, and the waits since the counters were reset. -/
structure QueueState where
  current : Option ℕ := none
  cancelGen : ℕ := 0
  serialBuffer : List BufferedSerialEntry := []
  serialWorkerActive : Bool := false
  park : Option ℕ := none
  parkCount : ℕ := 0
  parkAccumMs : ℤ := 0
  timers : List ParkTimer := []
  timersSet : ℕ := 0
  joined : ℕ := 0
  serialOrder : List TurnId := []
  parks : List ℤ := []

/-- The wait marker a turn has left: its deadline, and the times at which it is read and used. -/
structure ParkRequest where
  deadlineMs : Option ℤ := none
  readAt : ℤ := 0
  now : ℤ := 0

/-- `consumeWaitMarker` -/
def consumeWaitMarker (request : ParkRequest) : Option ℤ :=
  request.deadlineMs.bind fun deadline =>
    if min deadline (request.readAt + MAX_WAIT_MS) ≤ request.readAt then none
    else some (min deadline (request.readAt + MAX_WAIT_MS))

namespace QueueState

variable (q : QueueState)

def resetParks : QueueState := { q with parkCount := 0, parkAccumMs := 0, parks := [] }

def supersedePendingPark : QueueState :=
  match q.park with
  | none => q
  | some id => resetParks { q with timers := q.timers.filter (·.id ≠ id), park := none }

def clampedWait (deadline now : ℤ) : ℤ := max 0 (min (deadline - now) (MAX_WAIT_MS - q.parkAccumMs))

/-- How long a turn that asks for it may wait; `none` if it may not. -/
def waitMs (t : TurnRun) (request : ParkRequest) : Option ℤ :=
  if !t.entry.turn.parkEligible || t.timedOut || t.aborted then none
  else (consumeWaitMarker request).bind fun deadline =>
    if MAX_PARKS ≤ q.parkCount ∨ MAX_WAIT_MS ≤ q.parkAccumMs then none
    else if q.clampedWait deadline request.now ≤ 0 then none
    else some (q.clampedWait deadline request.now)

def maybeSchedulePark (t : TurnRun) (request : ParkRequest) : QueueState :=
  match q.waitMs t request with
  | none => q.resetParks
  | some wait =>
    { q with
      parkCount := q.parkCount + 1
      parkAccumMs := q.parkAccumMs + wait
      parks := q.parks ++ [wait]
      timers := q.timers ++ [{ id := q.timersSet, entry := t.entry, since := t.since }]
      timersSet := q.timersSet + 1
      park := some q.timersSet }

/-- The queue after a call of `runSerial` has joined the buffer. -/
def push (i : TurnId) (call : Call) : QueueState :=
  { q.supersedePendingPark with
    serialBuffer := q.serialBuffer ++ [call.dispatch]
    serialOrder := q.serialOrder ++ [i]
    joined := if call.rewake then q.joined else q.joined + 1 }

/-- The queue after a call of `runCancelPrevious` has arrived. -/
def supersede : QueueState :=
  { q.supersedePendingPark with cancelGen := q.cancelGen + 1, joined := q.joined + 1 }

def setBuffer (serialBuffer : List BufferedSerialEntry) : QueueState := { q with serialBuffer }

def setWorker (serialWorkerActive : Bool) : QueueState := { q with serialBuffer := [], serialWorkerActive }

def setCurrent (current : Option ℕ) : QueueState := { q with current }

def elapse (timer : ParkTimer) : QueueState := { q with timers := q.timers.filter (·.id ≠ timer.id), park := none }

end QueueState

structure Dispatcher where
  calls : List Call := []
  turns : List TurnRun := []
  deferredMultimodal : List BufferedSerialEntry := []
  queue : QueueState := {}

inductive CallEvent
  | acked
  | observed (wake breakerOpen : Bool)
  | settled (ok : Bool)
  | sent
  | queued (ok : Bool)
  | resumed
  | closed

inductive DispatcherAction
  | handle (route : GatewayRoute) (msg : GatewayInboundMessage) (channel : Option ChannelAdapter)
  | call (i : TurnId) (event : CallEvent)
  | turn (k : ℕ) (event : TurnEvent) (request : ParkRequest)
  | fire (timer : ℕ)

def idsOf (entries : List BufferedSerialEntry) : List TurnId := entries.map (·.turnId)

namespace Dispatcher

variable (s : Dispatcher)

def setPhase (i : TurnId) (phase : CallPhase) : Dispatcher :=
  { s with calls := s.calls.modify i fun call => { call with phase } }

def write (i : TurnId) (kind : RecordKind) : Dispatcher :=
  { s with calls := s.calls.modify i fun call => { call with records := call.records ++ [kind] } }

/-- Settles the promise of an entry; settling it again does nothing. -/
def settle (completion : Completion) (i : TurnId) : Dispatcher :=
  { s with calls := s.calls.modify i fun call => { call with completion := call.completion.or (some completion) } }

def writeAll (ids : List TurnId) (kind : RecordKind) : Dispatcher := ids.foldl (fun s i => s.write i kind) s

def settleAll (completion : Completion) (ids : List TurnId) : Dispatcher := ids.foldl (fun s i => s.settle completion i) s

def setQueue (queue : QueueState) : Dispatcher := { s with queue }

def addCall (call : Call) : Dispatcher := { s with calls := s.calls ++ [call] }

def setDeferred (deferredMultimodal : List BufferedSerialEntry) : Dispatcher := { s with deferredMultimodal }

def setTurn (k : ℕ) (t : TurnRun) : Dispatcher := { s with turns := s.turns.set k t }

def addTurn (t : TurnRun) : Dispatcher := { s with turns := s.turns ++ [t] }

/-- `runTurn` up to its first await. -/
def startTurn (entry : BufferedSerialEntry) (members : List TurnId) (gen : Option ℕ) : Dispatcher :=
  ((s.addTurn { entry, members, since := s.queue.joined, gen }).setQueue (s.queue.setCurrent (some s.turns.length))).write
    entry.turnId .dispatched

variable (c : Composer) (policy : TurnPolicy)

/-- `mergeSerialBuffer`, without the text. -/
def merge (entries : List BufferedSerialEntry) : Option BufferedSerialEntry :=
  (mergeSerialBuffer c entries).map fun merged =>
    { route := merged.route, msg := merged.msg, channel := merged.channel, turnId := merged.turnId }

/-- The loop of the worker: it drains the buffer into one turn, or ends. -/
def work (i : TurnId) : Dispatcher :=
  match merge c s.queue.serialBuffer with
  | some merged =>
    (((s.setQueue (s.queue.setWorker true)).writeAll (idsOf s.queue.serialBuffer.dropLast)
      (.dropped .batchMerged)).startTurn merged (idsOf s.queue.serialBuffer) none).setPhase i (.working s.turns.length)
  | none => (s.setQueue (s.queue.setWorker false)).setPhase i .waiting

def dropOldest (i : TurnId) (oldest : BufferedSerialEntry) (rest : List BufferedSerialEntry) : Dispatcher :=
  ((s.setQueue (s.queue.setBuffer rest)).write oldest.turnId (.dropped .queueOverflow)).setPhase i
    (.overflowing oldest.turnId)

/-- What a call does after it has joined the buffer: drop the oldest entry while there are too many, wait, or become the worker. -/
def afterPush (i : TurnId) : Dispatcher :=
  match s.queue.serialBuffer with
  | oldest :: rest =>
    if MAX_BATCH_BUFFER_ENTRIES < (oldest :: rest).length then s.dropOldest i oldest rest
    else if s.queue.serialWorkerActive then s.setPhase i .waiting
    else s.work c i
  | [] => if s.queue.serialWorkerActive then s.setPhase i .waiting else s.work c i

/-- `runSerial`, called by `handle` or by a timer. -/
def runSerial (i : TurnId) (call : Call) : Dispatcher :=
  ((s.setQueue (s.queue.push i call)).setPhase i .waiting).afterPush c i

/-- The running turn is recorded as dropped and aborted. -/
def abort (prev : ℕ) : Dispatcher :=
  match s.turns[prev]? with
  | some t => (s.setTurn prev { t with superseded := true }).write t.entry.turnId (.dropped .queueCancelPrevious)
  | none => s

/-- A turn of a single call starts. -/
def run (i : TurnId) (call : Call) (gen : ℕ) : Dispatcher :=
  (s.startTurn call.dispatch [i] (some gen)).setPhase i (.running s.turns.length)

/-- `runCancelPrevious`. Its own turn starts at once if there is none to abort. -/
def runCancelPrevious (i : TurnId) (call : Call) : Dispatcher :=
  match s.queue.current with
  | none => (s.setQueue s.queue.supersede).run i call s.queue.supersede.cancelGen
  | some prev =>
    ((s.setQueue s.queue.supersede).abort prev).setPhase i (.cancelling s.queue.supersede.cancelGen prev)

def enterQueue (i : TurnId) (call : Call) : Dispatcher :=
  match call.mode with
  | .serial => s.runSerial c i call
  | .cancelPrevious => s.runCancelPrevious i call

def reports (entry : BufferedSerialEntry) : Bool := entry.turn.responseIds ≠ []

/-- A message with a text takes what was deferred and is merged with it. -/
def dispatchOf (entry : BufferedSerialEntry) : BufferedSerialEntry :=
  if s.deferredMultimodal = [] then entry else (merge c (s.deferredMultimodal ++ [entry])).getD entry

def arrive (entry : BufferedSerialEntry) (mode : QueueMode) : Dispatcher :=
  ((s.writeAll (idsOf s.deferredMultimodal) (.dropped .batchMerged)).setDeferred []).addCall
    { mode, dispatch := s.dispatchOf c entry, taken := idsOf s.deferredMultimodal, phase := .observing, records := [.inbound] }

/-- `handle` up to its first await. The messages it skips leave no trace. -/
def handle (route : GatewayRoute) (msg : GatewayInboundMessage) (channel : Option ChannelAdapter) : Dispatcher :=
  match channel with
  | none => s
  | some channel =>
    if msg.sender.id = msg.accountId ∧ msg.sender.kind = .agent then s
    else if trim msg.text = "" then s
    else if isMultimodalOnlyMessage msg then
      s.addCall {
        mode := resolveQueueMode route msg.conversation.kind
        dispatch := { route, msg, channel, turnId := s.calls.length }
        phase := .deferring }
    else s.arrive c { route, msg, channel, turnId := s.calls.length } (resolveQueueMode route msg.conversation.kind)

def deferMultimodal (entry : BufferedSerialEntry) : Dispatcher :=
  match s.deferredMultimodal with
  | oldest :: rest =>
    if MAX_BATCH_BUFFER_ENTRIES < (oldest :: rest).length + 1 then
      (s.setDeferred (rest ++ [entry])).write oldest.turnId (.dropped .queueOverflow)
    else s.setDeferred (oldest :: rest ++ [entry])
  | [] => s.setDeferred [entry]

def afterGate (i : TurnId) (call : Call) (wake breakerOpen : Bool) : Dispatcher :=
  if !wake then (s.write i .attentionSkipped).setPhase i .skipping
  else if breakerOpen then s.setPhase i .breaking
  else if reports call.dispatch then s.setPhase i .reporting
  else s.enterQueue c i call

/-- How a turn has ended: `some false` resolves its promise `done` as well. -/
def turnEnd (k : ℕ) : Option Bool :=
  s.turns[k]?.bind fun t => match t.phase with
    | .ended failed => some failed
    | _ => none

/-- The worker after its turn: it goes on, or gives up and rejects what waits. -/
def afterTurn (i : TurnId) (k : ℕ) (t : TurnRun) (failed : Bool) : Dispatcher :=
  if failed then
    (((s.settleAll (.failed k) t.members).settleAll (.failed k) (idsOf s.queue.serialBuffer)).setQueue
      (s.queue.setWorker false)).setPhase i .waiting
  else (s.settleAll (.done k) t.members).work c i

/-- A call that was told to cancel the turn before it runs if none has come after it. -/
def afterCancel (i : TurnId) (call : Call) (gen : ℕ) : Dispatcher :=
  if gen = s.queue.cancelGen then s.run i call gen
  else (s.write i (.dropped .queueCancelPrevious)).setPhase i .superseded

def settledPhase (call : Call) (completion : Completion) : CallPhase :=
  if call.rewake then if completion.rejected then .threw else .returned else .closing completion.rejected

def resume (i : TurnId) (call : Call) : Option Dispatcher :=
  match call.phase with
  | .working k => s.turns[k]?.bind fun t => (s.turnEnd k).map fun failed => s.afterTurn c i k t failed
  | .waiting => call.completion.map fun completion => s.setPhase i (settledPhase call completion)
  | .cancelling gen prev => if s.turnEnd prev = some false then some (s.afterCancel i call gen) else none
  | .running k => (s.turnEnd k).map fun failed => s.setPhase i (.closing failed)
  | _ => none

def callStep (i : TurnId) (call : Call) : CallEvent → Option Dispatcher
  | .acked => match call.phase with
    | .deferring => some (((s.write i .inbound).deferMultimodal call.dispatch).setPhase i .deferred)
    | .acking => some (s.setPhase i .returned)
    | _ => none
  | .observed wake breakerOpen =>
    if call.phase = .observing then some (s.afterGate c i call wake breakerOpen) else none
  | .settled ok => match call.phase with
    | .skipping => if ok || reports call.dispatch then some (s.setPhase i (if ok then .acking else .threw)) else none
    | .breaking => some ((s.write i .turnError).setPhase i .breakerReply)
    | .overflowing dropped => some ((s.settle .dropped dropped).afterPush c i)
    | .superseded => some (s.setPhase i (.closing false))
    | _ => none
  | .sent => if call.phase = .breakerReply then some ((s.write i .outbound).setPhase i .acking) else none
  | .queued ok =>
    if call.phase = .reporting then some (if ok then s.enterQueue c i call else s.setPhase i .threw) else none
  | .resumed => s.resume c i call
  | .closed => match call.phase with
    | .closing failed => some (s.setPhase i (if failed then .threw else .acking))
    | _ => none

/-- The queue after the end of a turn. A turn that throws at its end leaves it as it is. -/
def queueAfter (k : ℕ) (t : TurnRun) (event : TurnEvent) (request : ParkRequest) : QueueState :=
  if event = .closed false then
    (s.queue.setCurrent (if s.queue.current = some k then none else s.queue.current)).maybeSchedulePark t request
  else s.queue

def turnStep (k : ℕ) (t : TurnRun) (event : TurnEvent) (request : ParkRequest) : Option Dispatcher :=
  (t.step policy event).map fun next => (s.setTurn k next).setQueue (s.queueAfter k t event request)

/-- No call has a settled promise to go on from. -/
def Idle : Prop := ∀ i, ∀ call ∈ s.calls[i]?, s.resume c i call = none

instance decidableIdle : Decidable (s.Idle c) :=
  decidable_of_iff (∀ i < s.calls.length, ∀ call ∈ s.calls[i]?, (s.resume c i call).isNone = true) <| by
    constructor
    · intro h i call hcall
      exact Option.isNone_iff_eq_none.mp (h i (List.getElem?_eq_some_iff.mp hcall).1 call hcall)
    · intro h i _ call hcall
      exact Option.isNone_iff_eq_none.mpr (h i call hcall)

/-- The call of `runSerial` that a timer makes. -/
def rewakeCall (timer : ParkTimer) : Call where
  rewake := true
  mode := .serial
  dispatch := { timer.entry with turnId := s.calls.length }
  phase := .waiting

/-- A timer fires: it re-wakes the queue. -/
def fire (timer : ParkTimer) : Dispatcher :=
  ((s.addCall (s.rewakeCall timer)).setQueue (s.queue.elapse timer)).runSerial c s.calls.length (s.rewakeCall timer)

/-- A timer can only fire once every call has gone on that can. -/
def step : DispatcherAction → Option Dispatcher
  | .handle route msg channel => some (s.handle c route msg channel)
  | .call i event => s.calls[i]?.bind fun call => s.callStep c i call event
  | .turn k event request => s.turns[k]?.bind fun t => s.turnStep policy k t event request
  | .fire id => (s.queue.timers.find? (·.id = id)).bind fun timer => if s.Idle c then some (s.fire c timer) else none

end Dispatcher

def dispatcherSystem (c : Composer) (policy : TurnPolicy) : System Dispatcher DispatcherAction where
  step s action := s.step c policy action

end BotCord.Gateway
