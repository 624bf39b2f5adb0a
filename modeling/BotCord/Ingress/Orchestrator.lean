import BotCord.Foundation.Run
import BotCord.Ingress.Store

/-!
# The ingress orchestrator

`orchestrator.ts` and `runtime/session.ts` of `packages/gateway-ingress/src`, as one system: events are ingested, dispatched to the runtime of their agent over a socket, answered by frames, and the answer is sent through the provider. A step is what runs between two awaits. What the Hub, the sockets and the providers answer, and when, is up to the actions; the frames that only touch the provider's typing state, the activity tracker of the Hub and the log are without effect here.
-/

namespace BotCord.Ingress

abbrev SocketId := ℕ

inductive ReadyState
  | connecting | opened | closing | closed
deriving DecidableEq

inductive Ready
  | pending | resolved | rejected (error : String)
deriving DecidableEq

structure InboundFrame where
  eventId : EventId
  gatewayId : GatewayId
  agentId : AgentId
  provider : Provider
  channel : GatewayId
  accountId : AgentId
  message : InboundMessage

structure Socket where
  agentId : AgentId
  gatewayId : GatewayId
  readyState : ReadyState
  ready : Ready
  sent : List InboundFrame := []

def sessionKey (agentId : AgentId) (gatewayId : GatewayId) : String := agentId.text ++ ":" ++ gatewayId

def Socket.key (socket : Socket) : String := sessionKey socket.agentId socket.gatewayId

structure Reply where
  eventId : EventId
  gatewayId : GatewayId
  conversationId : String
  turnId : String

inductive RuntimeFrame
  | inboundAck (eventId : EventId) (accepted : Bool) (errorCode : Option String)
  | outboundStart (reply : Reply)
  | outboundDelta (reply : Reply) (delta : String)
  | outboundComplete (reply : Reply) (finalText : String)
  | outboundError (reply : Reply) (code message : String)
  | outboundTyping (reply : Reply)
  | heartbeat

/-- What the Hub says of the runtime of an agent, or what is thrown. -/
inductive RuntimeAnswer
  | ready (hasMetadata : Bool)
  | failed (errorCode : Option String)
  | deleted
  | other (status : String)
  | hubClientError (status : ℕ) (code : String)
  | error (text : String)

inductive Phase
  /-- the answer of the Hub -/
  | metadata
  /-- the socket factory -/
  | connecting
  /-- the new socket to be ready -/
  | opening (socket : SocketId)
  /-- nothing: the session is there -/
  | established
  /-- the session to be ready, to send the frame -/
  | sending (socket : SocketId)
  /-- nothing: there was no session to send the frame over -/
  | unsent
deriving DecidableEq

def Phase.isSending : Phase → Bool
  | .sending _ => true
  | _ => false

structure Dispatch where
  event : InboundEvent
  connection : Connection
  phase : Phase

structure Retry where
  force : Bool
  now : Instant
  rest : List InboundEvent
  awaiting : Option EventId := none

/-- A reply on its way: to the provider, and then in the activity tracker of the Hub. -/
inductive SendPhase
  | sending | touching
deriving DecidableEq

structure Send where
  deliveryId : DeliveryId
  phase : SendPhase := .sending

/-- The keys of `dispatches` are `dispatchingEvents`, those of `completing` are `completingEvents`. The last four fields are history: the socket that was last installed for a key, the one a delivering event was handed to, and the events whose reply was begun and was sent. -/
structure Orchestrator where
  store : Store := {}
  clock : Instant := 0
  providers : List GatewayId := []
  dispatches : EventId → Option Dispatch := fun _ => none
  retry : Option Retry := none
  completing : EventId → Option Send := fun _ => none
  sessions : String → Option SocketId := fun _ => none
  sockets : SocketId → Option Socket := fun _ => none
  latest : String → Option SocketId := fun _ => none
  carrier : EventId → Option SocketId := fun _ => none
  started : List EventId := []
  replied : List EventId := []

structure Options where
  retryBaseDelayMs : ℕ := 1000
  retryMaxDelayMs : ℕ := 30000

namespace Orchestrator

variable (options : Options) (s : Orchestrator)

def updateEvent (id : EventId) (patch : InboundEvent → InboundEvent)
    (hid : ∀ e, (patch e).eventId = e.eventId := by intro; rfl) : Orchestrator :=
  { s with store := s.store.updateEvent id (fun e => { patch e with updatedAt := s.clock }) hid }

def setDispatch (id : EventId) (dispatch : Option Dispatch) : Orchestrator :=
  { s with dispatches := Function.update s.dispatches id dispatch }

def setCompleting (id : EventId) (send : Option Send) : Orchestrator :=
  { s with completing := Function.update s.completing id send }

def setSession (key : String) (socket : Option SocketId) : Orchestrator :=
  { s with sessions := Function.update s.sessions key socket }

def modifySocket (id : SocketId) (f : Socket → Socket) : Orchestrator :=
  { s with sockets := Function.update s.sockets id ((s.sockets id).map f) }

def retryDelayMs (attemptCount : ℕ) : ℕ :=
  min options.retryMaxDelayMs (options.retryBaseDelayMs * 2 ^ min (attemptCount - 1) 8)

/-- Back to the queue: the attempts are counted from the row that the dispatch has read. -/
def requeueEvent (id : EventId) (event : InboundEvent) (lastError : String) : Orchestrator :=
  let attemptCount := event.attemptCount + 1
  s.updateEvent id fun e =>
    { e with
      status := .queued, attemptCount, nextAttemptAt := some (s.clock + retryDelayMs options attemptCount)
      lastError := some lastError }

def failEvent (id : EventId) (lastError : String) : Orchestrator :=
  s.updateEvent id fun e => { e with status := .failed, nextAttemptAt := none, lastError := some lastError }

/-- Tested for a row of the snapshot that the loop goes through. -/
def IsDue (event : InboundEvent) (now : Instant) : Prop :=
  s.dispatches event.eventId = none ∧
    match event.nextAttemptAt with
    | some next => next ≤ now
    | none => event.attemptCount = 0 ∨ event.updatedAt + retryDelayMs options event.attemptCount ≤ now

instance (event : InboundEvent) (now : Instant) : Decidable (IsDue options s event now) := by
  unfold IsDue
  cases event.nextAttemptAt <;> infer_instance

/-- `dispatchEvent` up to its first await. -/
def dispatchEvent (id : EventId) : Orchestrator :=
  if s.dispatches id ≠ none then s
  else
    match s.store.getEvent id with
    | none => s
    | some event =>
      if event.status.Terminal then s
      else
        match s.store.getConnection event.gatewayId with
        | none => s.failEvent id "gateway_not_found"
        | some connection => s.setDispatch id (some { event, connection, phase := .metadata })

def waitFor (id : EventId) (d : Dispatch) (phase : Phase) : Orchestrator := s.setDispatch id (some { d with phase })

def giveBack (id : EventId) (d : Dispatch) (lastError : String) : Orchestrator :=
  (s.requeueEvent options id d.event lastError).setDispatch id none

def giveUp (id : EventId) (lastError : String) : Orchestrator := (s.failEvent id lastError).setDispatch id none

def closeSession (key : String) (socket : SocketId) : Orchestrator :=
  (s.modifySocket socket fun x => if x.readyState = .closed then x else { x with readyState := .closing }).setSession key none

def IsOpen (socket : SocketId) : Prop := (s.sockets socket).any (·.readyState = .opened) = true
deriving Decidable

/-- `ensureSession` up to its first await. -/
def ensureSession (id : EventId) (d : Dispatch) : Orchestrator :=
  let key := sessionKey d.connection.agentId d.connection.id
  match s.sessions key with
  | none => s.waitFor id d .connecting
  | some current =>
    if s.IsOpen current then s.waitFor id d .established else (s.closeSession key current).waitFor id d .connecting

def onMetadata (id : EventId) (d : Dispatch) : RuntimeAnswer → Orchestrator
  | .failed code => s.giveUp id ("hub_status_failed:" ++ code.getD "unknown")
  | .deleted => s.giveUp id "hub_status_deleted"
  | .ready true => s.ensureSession id d
  | .ready false => s.giveBack options id d "hub_status_ready"
  | .other status => s.giveBack options id d ("hub_status_" ++ status)
  | .hubClientError status code =>
    let lastError := "ensure_running_failed: " ++ if code = "" then "http_" ++ toString status else code
    if status = 404 ∨ status = 409 then s.giveUp id lastError else s.giveBack options id d lastError
  | .error text => s.giveBack options id d ("ensure_running_failed: " ++ text)

/-- The factory has made a socket: it is installed, over whatever was there. -/
def onConnected (id : EventId) (d : Dispatch) (socket : SocketId) (readyState : ReadyState) : Orchestrator :=
  let key := sessionKey d.connection.agentId d.connection.id
  let made : Socket :=
    { agentId := d.connection.agentId, gatewayId := d.connection.id, readyState
      ready := if readyState = .opened then .resolved else .pending }
  { s with
    sockets := Function.update s.sockets socket (some made)
    sessions := Function.update s.sessions key (some socket)
    latest := Function.update s.latest key (some socket)
    dispatches := Function.update s.dispatches id (some { d with phase := .opening socket }) }

/-- The event is marked, and `sendInbound` runs up to its await. -/
def deliver (id : EventId) (d : Dispatch) : Orchestrator :=
  let session := s.sessions (sessionKey d.connection.agentId d.connection.id)
  let marked := s.updateEvent id fun e =>
    { e with status := .delivering, attemptCount := d.event.attemptCount + 1, nextAttemptAt := none }
  { marked with carrier := Function.update s.carrier id session }.waitFor id d
    (match session with
      | some socket => .sending socket
      | none => .unsent)

def inboundFrame (id : EventId) (d : Dispatch) : InboundFrame where
  eventId := id
  gatewayId := d.connection.id
  agentId := d.connection.agentId
  provider := d.connection.provider
  channel := d.event.gatewayId
  accountId := d.event.agentId
  message := d.event.normalizedMessage

def sendFrame (id : EventId) (d : Dispatch) (socket : SocketId) : Orchestrator :=
  (s.modifySocket socket fun x => { x with sent := x.sent ++ [inboundFrame id d] }).setDispatch id none

/-- The promise of a session; one that was never made is never settled. -/
def readyOf (socket : SocketId) : Ready := ((s.sockets socket).map (·.ready)).getD .pending

def resume (id : EventId) (d : Dispatch) : Option Orchestrator :=
  match d.phase with
  | .metadata | .connecting => none
  | .opening socket =>
    match s.readyOf socket with
    | .pending => none
    | .resolved => some (s.waitFor id d .established)
    | .rejected error => some (s.giveBack options id d ("runtime_session_failed: " ++ error))
  | .established => some (s.deliver id d)
  | .sending socket =>
    match s.readyOf socket with
    | .pending => none
    | .resolved =>
      some (if s.IsOpen socket then s.sendFrame id d socket
        else s.giveBack options id d "send_failed: runtime session is not open")
    | .rejected error => some (s.giveBack options id d ("send_failed: " ++ error))
  | .unsent => some (s.giveBack options id d "send_failed: no runtime session")

def newDelivery (reply : Reply) (deliveryId : DeliveryId) : OutboundDelivery where
  deliveryId := deliveryId
  eventId := reply.eventId
  gatewayId := reply.gatewayId
  conversationId := reply.conversationId
  turnId := reply.turnId

def ensureDeliveryFor (reply : Reply) (deliveryId : DeliveryId) : Orchestrator × DeliveryId :=
  let made := s.store.ensureDeliveryFor (newDelivery reply deliveryId)
  ({ s with store := made.1 }, made.2)

def updateDelivery (id : DeliveryId) (patch : OutboundDelivery → OutboundDelivery)
    (hid : ∀ d, (patch d).deliveryId = d.deliveryId := by intro; rfl) : Orchestrator :=
  { s with store := s.store.updateDelivery id patch hid }

/-- The answer is complete: it is sent, unless the event is over or a send is under way. -/
def onComplete (reply : Reply) (deliveryId : DeliveryId) : Orchestrator :=
  if (s.store.getEvent reply.eventId).any (fun e => e.status.Terminal) then s
  else if s.completing reply.eventId ≠ none then s
  else if reply.gatewayId ∉ s.providers then
    s.updateEvent reply.eventId fun e => { e with status := .failed, lastError := some "provider_not_registered" }
  else
    let made := s.ensureDeliveryFor reply deliveryId
    { made.1.setCompleting reply.eventId (some { deliveryId := made.2 }) with started := s.started ++ [reply.eventId] }

/-- `onRuntimeFrame` up to its await. -/
def onRuntimeFrame (deliveryId : DeliveryId) : RuntimeFrame → Orchestrator
  | .inboundAck id accepted errorCode =>
    if accepted then s
    else
      s.updateEvent id fun e =>
        { e with
          status := .failed
          lastError := some (errorCode.elim "daemon_rejected" fun code => "daemon_rejected:" ++ code) }
  | .outboundStart reply => (s.ensureDeliveryFor reply deliveryId).1
  | .outboundDelta reply _ =>
    let made := s.ensureDeliveryFor reply deliveryId
    made.1.updateDelivery made.2 fun d => { d with status := .streaming }
  | .outboundComplete reply _ => s.onComplete reply deliveryId
  | .outboundError reply code message =>
    if s.store.getEvent reply.eventId = none then s
    else
      let failed := s.updateEvent reply.eventId fun e =>
        { e with status := .failed, lastError := some ("runtime_error:" ++ code) }
      match s.store.getDeliveryByEvent reply.eventId with
      | some delivery =>
        failed.updateDelivery delivery.deliveryId fun d => { d with status := .failed, lastError := some message }
      | none => failed
  | .outboundTyping _ | .heartbeat => s

/-- The provider has answered: a reply that was sent ends its event. -/
def onSent (id : EventId) (send : Send) (result : Except String (Option String)) : Orchestrator :=
  match result with
  | .ok providerMessageId =>
    if s.store.getEvent id = none then
      -- the update of the event throws, twice
      (s.updateDelivery send.deliveryId fun d =>
        { d with
          status := .failed, providerMessageId
          lastError := some ("Error: event " ++ toString id ++ " not found") }).setCompleting id none
    else
      let done := (s.updateDelivery send.deliveryId fun d => { d with status := .sent, providerMessageId }).updateEvent id
        fun e => { e with status := .delivered }
      { done.setCompleting id (some { send with phase := .touching }) with replied := s.replied ++ [id] }
  | .error text =>
    ((s.updateDelivery send.deliveryId fun d => { d with status := .failed, lastError := some text }).updateEvent id fun e =>
      { e with status := .failed, lastError := some ("provider_send_failed: " ++ text) }).setCompleting id none

/-- The events of the agent that are being delivered go back to the queue. -/
def onRuntimeClose (agentId : AgentId) (reason : String) : Orchestrator :=
  { s with
    store :=
      { s.store with
        events := s.store.events.modify (fun e => e.status = .delivering ∧ e.agentId = agentId) fun e =>
          { e with status := .queued, lastError := some ("runtime_closed:" ++ reason), updatedAt := s.clock } } }

/-- The close handler of a socket: it forgets the session of its key. -/
def onClose (id : SocketId) (socket : Socket) (reason : String) : Orchestrator :=
  ((s.modifySocket id fun x => { x with readyState := .closed }).setSession socket.key none).onRuntimeClose socket.agentId
    reason

def Unknown (id : EventId) : Prop :=
  s.store.getEvent id = none ∧ s.dispatches id = none ∧ s.completing id = none ∧ id ∉ s.started ∧ id ∉ s.replied
deriving Decidable

def newEvent (connection : Connection) (message : InboundMessage) (providerEventId : String) (id : EventId) :
    InboundEvent where
  eventId := id
  gatewayId := connection.id
  agentId := connection.agentId
  provider := connection.provider
  providerEventId := providerEventId
  normalizedMessage := message
  createdAt := s.clock
  updatedAt := s.clock

/-- `ingest`: a message that has not been seen becomes an event, which is dispatched. -/
def ingest (gatewayId : GatewayId) (message : InboundMessage) (providerEventId : String) (id : EventId) : Orchestrator :=
  match s.store.getConnection gatewayId with
  | none => s
  | some connection =>
    if s.store.HasProviderEventId gatewayId providerEventId then s
    else
      match s.store.insertEvent (s.newEvent connection message providerEventId id) with
      | none => s
      | some store => { s with store := store.appendDedupe gatewayId providerEventId }.dispatchEvent id

def retryPending (force : Bool) : Orchestrator :=
  if s.retry ≠ none then s
  else
    let rest := s.store.listEventsByStatus (if force then [.queued, .delivering] else [.queued])
    { s with retry := some { force, now := s.clock, rest } }

/-- One round of the loop, once the dispatch it waits for has ended. -/
def retryNext (r : Retry) : Option Orchestrator :=
  if r.awaiting.any (fun id => (s.dispatches id).isSome) then none
  else
    match r.rest with
    | [] => some { s with retry := none }
    | event :: rest =>
      if r.force = false ∧ ¬ IsDue options s event r.now then some { s with retry := some { r with rest } }
      else
        let awaiting := if (s.dispatches event.eventId).isSome then none else some event.eventId
        some ({ s with retry := some { r with rest, awaiting } }.dispatchEvent event.eventId)

end Orchestrator

inductive Action
  | tick (now : Instant)
  | configure (connections : Keyed Connection.id) (providers : List GatewayId)
  | ingest (gatewayId : GatewayId) (message : InboundMessage) (providerEventId : String) (id : EventId)
  | retryPending (force : Bool)
  | retryNext
  | metadata (id : EventId) (answer : RuntimeAnswer)
  | connected (id : EventId) (socket : SocketId) (readyState : ReadyState)
  | connectFailed (id : EventId) (error : String)
  | resume (id : EventId)
  | sendThrows (id : EventId) (error : String)
  | opens (socket : SocketId)
  | closing (socket : SocketId)
  | closes (socket : SocketId) (reason : String)
  | errors (socket : SocketId) (error : String)
  | closeSession (key : String)
  | frame (socket : SocketId) (frame : RuntimeFrame) (deliveryId : DeliveryId)
  | sent (id : EventId) (result : Except String (Option String))
  | touched (id : EventId)

open Orchestrator

def ingress (options : Options) : System Orchestrator Action where
  step
    | s, .tick now => if s.clock ≤ now then some { s with clock := now } else none
    | s, .configure connections providers => some { s with store := { s.store with connections }, providers }
    | s, .ingest gatewayId message providerEventId id =>
      if s.Unknown id then some (s.ingest gatewayId message providerEventId id) else none
    | s, .retryPending force => some (s.retryPending force)
    | s, .retryNext => s.retry.bind (s.retryNext options)
    | s, .metadata id answer =>
      ((s.dispatches id).filter (·.phase = .metadata)).map fun d => s.onMetadata options id d answer
    | s, .connected id socket readyState =>
      if s.sockets socket = none then
        ((s.dispatches id).filter (·.phase = .connecting)).map fun d => s.onConnected id d socket readyState
      else none
    | s, .connectFailed id error =>
      ((s.dispatches id).filter (·.phase = .connecting)).map fun d =>
        s.giveBack options id d ("runtime_session_failed: " ++ error)
    | s, .resume id => (s.dispatches id).bind (s.resume options id)
    | s, .sendThrows id error =>
      ((s.dispatches id).filter (·.phase.isSending)).map fun d =>
        s.giveBack options id d ("send_failed: " ++ error)
    | s, .opens socket =>
      ((s.sockets socket).filter (·.readyState = .connecting)).map fun _ =>
        s.modifySocket socket fun x => { x with readyState := .opened, ready := .resolved }
    | s, .closing socket =>
      ((s.sockets socket).filter (·.readyState ≠ .closed)).map fun _ =>
        s.modifySocket socket fun x => { x with readyState := .closing }
    | s, .closes socket reason =>
      ((s.sockets socket).filter (·.readyState ≠ .closed)).map fun x => s.onClose socket x reason
    | s, .errors socket error =>
      (s.sockets socket).map fun _ =>
        s.modifySocket socket fun x => if x.ready = .pending then { x with ready := .rejected error } else x
    | s, .closeSession key => (s.sessions key).map fun socket => s.closeSession key socket
    | s, .frame socket frame deliveryId =>
      if (s.sockets socket).isSome ∧ s.store.deliveries.get? deliveryId = none then some (s.onRuntimeFrame deliveryId frame)
      else none
    | s, .sent id result => ((s.completing id).filter (·.phase = .sending)).map fun send => s.onSent id send result
    | s, .touched id => ((s.completing id).filter (·.phase = .touching)).map fun _ => s.setCompleting id none

end BotCord.Ingress
