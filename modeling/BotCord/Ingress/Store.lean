import BotCord.Foundation.Keyed

/-!
# The store of the ingress

The rows of `packages/gateway-ingress/src/storage/store.ts`: gateways, the state of their providers, inbound events and the deliveries of replies. Events are never deleted; the window of provider ids against duplicates is bounded, and the events themselves are looked through as well.
-/

namespace BotCord.Ingress

abbrev EventId := ℕ
abbrev DeliveryId := ℕ
abbrev GatewayId := String

/-- Milliseconds. -/
abbrev Instant := ℕ

/-- The id of an agent, which has no colon in it. -/
structure AgentId where
  text : String
  plain : ':' ∉ text.toList := by decide
deriving DecidableEq

inductive Provider
  | telegram | wechat | feishu
deriving DecidableEq

structure Connection where
  id : GatewayId
  agentId : AgentId
  provider : Provider

structure InboundMessage where
  id : String
  conversationId : String
  senderId : String
  text : Option String := none
  replyTo : Option String := none
  mentioned : Option Bool := none
  receivedAt : Instant := 0
  trace : Option String := none
deriving DecidableEq

inductive EventStatus
  | received | queued | delivering | delivered | failed | deadLetter
deriving DecidableEq

def EventStatus.Terminal (status : EventStatus) : Prop :=
  status = .delivered ∨ status = .failed ∨ status = .deadLetter
deriving Decidable

structure InboundEvent where
  eventId : EventId
  gatewayId : GatewayId
  agentId : AgentId
  provider : Provider
  providerEventId : String
  normalizedMessage : InboundMessage
  status : EventStatus := .queued
  attemptCount : ℕ := 0
  nextAttemptAt : Option Instant := none
  lastError : Option String := none
  createdAt : Instant
  updatedAt : Instant
deriving DecidableEq

inductive DeliveryStatus
  | streaming | sent | failed

structure OutboundDelivery where
  deliveryId : DeliveryId
  eventId : EventId
  gatewayId : GatewayId
  conversationId : String
  turnId : String
  status : DeliveryStatus := .streaming
  providerMessageId : Option String := none
  lastError : Option String := none

structure ProviderState where
  dedupe : List String := []

structure Store where
  connections : Keyed Connection.id := {}
  states : GatewayId → ProviderState := fun _ => {}
  events : Keyed InboundEvent.eventId := {}
  deliveries : Keyed OutboundDelivery.deliveryId := {}

namespace Store

variable (s : Store)

def getConnection (gatewayId : GatewayId) : Option Connection := s.connections.get? gatewayId

def getEvent (id : EventId) : Option InboundEvent := s.events.get? id

def statusOf (id : EventId) : Option EventStatus := (s.getEvent id).map (·.status)

def listEventsByStatus (statuses : List EventStatus) : List InboundEvent :=
  (s.events.rows.filter (·.status ∈ statuses)).mergeSort fun x y => x.createdAt ≤ y.createdAt

def insertEvent (event : InboundEvent) : Option Store := (s.events.insert? event).map fun events => { s with events }

def updateEvent (id : EventId) (patch : InboundEvent → InboundEvent)
    (hid : ∀ e, (patch e).eventId = e.eventId := by intro; rfl) : Store :=
  { s with events := s.events.modify (·.eventId = id) patch hid }

def dedupeCapacity : ℕ := 1024

def appendDedupe (gatewayId : GatewayId) (providerEventId : String) : Store :=
  let state := s.states gatewayId
  if providerEventId ∈ state.dedupe then s
  else
    let dedupe := state.dedupe ++ [providerEventId]
    { s with
      states := Function.update s.states gatewayId { state with dedupe := dedupe.drop (dedupe.length - dedupeCapacity) } }

def HasProviderEventId (gatewayId : GatewayId) (providerEventId : String) : Prop :=
  providerEventId ∈ (s.states gatewayId).dedupe ∨
    ∃ e ∈ s.events, e.gatewayId = gatewayId ∧ e.providerEventId = providerEventId
deriving Decidable

def getDeliveryByEvent (eventId : EventId) : Option OutboundDelivery := s.deliveries.rows.find? (·.eventId = eventId)

def updateDelivery (id : DeliveryId) (patch : OutboundDelivery → OutboundDelivery)
    (hid : ∀ d, (patch d).deliveryId = d.deliveryId := by intro; rfl) : Store :=
  { s with deliveries := s.deliveries.modify (·.deliveryId = id) patch hid }

/-- The delivery of an event, which is created under a new id when it is first needed. -/
def ensureDeliveryFor (new : OutboundDelivery) : Store × DeliveryId :=
  match s.getDeliveryByEvent new.eventId with
  | some existing => (s, existing.deliveryId)
  | none =>
    match s.deliveries.insert? new with
    | some deliveries => ({ s with deliveries }, new.deliveryId)
    | none => (s, new.deliveryId)

variable {s} {id : EventId} {patch : InboundEvent → InboundEvent} {hid : ∀ e, (patch e).eventId = e.eventId}

theorem getEvent_updateEvent (id' : EventId) :
    (s.updateEvent id patch hid).getEvent id' = if id' = id then (s.getEvent id).map patch else s.getEvent id' :=
  Keyed.get?_modify_key hid

theorem statusOf_updateEvent_of_ne {id' : EventId} (h : id' ≠ id) :
    (s.updateEvent id patch hid).statusOf id' = s.statusOf id' := by
  rw [statusOf, getEvent_updateEvent, if_neg h, statusOf]

theorem appendDedupe_events (gatewayId : GatewayId) (providerEventId : String) :
    (s.appendDedupe gatewayId providerEventId).events = s.events := by
  unfold appendDedupe
  dsimp only
  split <;> rfl

theorem statusOf_insertEvent {event : InboundEvent} {store : Store} (h : s.insertEvent event = some store)
    (gatewayId : GatewayId) (providerEventId : String) (x : EventId) :
    (store.appendDedupe gatewayId providerEventId).statusOf x =
      if x = event.eventId then some event.status else s.statusOf x := by
  obtain ⟨events, hadd, rfl⟩ := Option.map_eq_some_iff.mp h
  rw [statusOf, getEvent, appendDedupe_events, (Keyed.insert?_eq_some hadd).get?]
  split
  · rfl
  · rfl

end Store

end BotCord.Ingress
