import BotCord.Foundation.Calendar
import BotCord.Wallet.Service

/-!
# The subscription tables

The rows of `hub/models.py` that the subscription service reads and writes, beside the wallet tables. `charges` is no table: it is the history of the periods that were activated, reactivated or advanced to, written where `last_charge_tx_id` is assigned and read by no function. Columns that no function reads back (names of rooms, descriptions, creation times) are left out.
-/

namespace BotCord.Subscriptions

open Wallet (OwnerId AssetCode TxId WalletTransaction TransferRequest FitsBigInteger Given)

abbrev AgentId := OwnerId
abbrev ProductId := String
abbrev SubscriptionId := String
abbrev RoomId := String

inductive ParticipantType
  | agent | human
deriving DecidableEq

inductive BillingInterval
  | week | month | once

inductive ProductStatus
  | active | archived
deriving DecidableEq

inductive SubscriptionStatus
  | active | pastDue | cancelled
deriving DecidableEq

inductive AttemptStatus
  | pending | succeeded | failed
deriving DecidableEq

inductive RoomRole
  | owner | admin | member

structure SubscriptionProduct where
  productId : ProductId
  ownerId : String
  ownerType : ParticipantType
  providerAgentId : AgentId
  name : String
  assetCode : AssetCode := "COIN"
  amountMinor : ℤ
  billingInterval : BillingInterval
  status : ProductStatus := .active

structure AgentSubscription where
  subscriptionId : SubscriptionId
  productId : ProductId
  subscriberAgentId : AgentId
  providerAgentId : AgentId
  roomId : Option RoomId
  assetCode : AssetCode
  amountMinor : ℤ
  billingInterval : BillingInterval
  status : SubscriptionStatus := .active
  currentPeriodStart : DateTime
  currentPeriodEnd : DateTime
  nextChargeAt : DateTime
  cancelAtPeriodEnd : Bool := false
  cancelledAt : Option DateTime := none
  lastChargedAt : Option DateTime := none
  lastChargeTxId : Option TxId := none
  consecutiveFailedAttempts : ℕ := 0

structure SubscriptionChargeAttempt where
  attemptId : String
  subscriptionId : SubscriptionId
  billingCycleKey : String
  status : AttemptStatus := .pending
  scheduledAt : DateTime
  attemptedAt : DateTime
  txId : Option TxId := none
  /-- The error whose text is the `failure_reason`. -/
  failureReason : Option Wallet.Error := none
  attemptCount : ℕ := 1

structure Room where
  roomId : RoomId
  requiredSubscriptionProductId : Option ProductId
  maxMembers : Option ℕ

structure RoomMember where
  roomId : RoomId
  agentId : AgentId
  role : RoomRole := .member

/-- A paid period: the transaction a subscription was charged with, and what was owed for it. -/
structure Charge where
  subscriptionId : SubscriptionId
  periodStart : DateTime
  periodEnd : DateTime
  subscriberAgentId : AgentId
  providerAgentId : AgentId
  amountMinor : ℤ
  txId : TxId
deriving DecidableEq

structure Store where
  wallet : Wallet.Store
  products : List SubscriptionProduct := []
  rooms : List Room := []
  members : List RoomMember := []
  subscriptions : List AgentSubscription := []
  attempts : List SubscriptionChargeAttempt := []
  charges : List Charge := []

inductive Error
  /-- `ValueError`, with its text. -/
  | value (message : String)
  | wallet (e : Wallet.Error)
  /-- A date past the last year: an `OverflowError`, or the `ValueError` of `replace`. -/
  | overflow | yearOutOfRange
  /-- An expired attribute is read where nothing can be loaded. -/
  | missingGreenlet
  | integrity
  | data

def SubscriptionProduct.nameKey (p : SubscriptionProduct) : String × ParticipantType × String :=
  (p.ownerId, p.ownerType, p.name)

def AgentSubscription.productKey (s : AgentSubscription) : ProductId × AgentId := (s.productId, s.subscriberAgentId)

def SubscriptionChargeAttempt.cycle (a : SubscriptionChargeAttempt) : SubscriptionId × String :=
  (a.subscriptionId, a.billingCycleKey)

def RoomMember.key (m : RoomMember) : RoomId × AgentId := (m.roomId, m.agentId)

namespace Store

structure InRange (s : Store) : Prop where
  wallet : s.wallet.InRange
  products : ∀ p ∈ s.products, FitsBigInteger p.amountMinor
  subscriptions : ∀ r ∈ s.subscriptions, FitsBigInteger r.amountMinor ∧ r.consecutiveFailedAttempts < 2 ^ 31
  attempts : ∀ a ∈ s.attempts, a.attemptCount < 2 ^ 31

/-- The unique, check and foreign key constraints. -/
structure Integral (s : Store) : Prop where
  wallet : s.wallet.Integral
  product_ids : (s.products.map SubscriptionProduct.productId).Nodup
  product_names : (s.products.map SubscriptionProduct.nameKey).Nodup
  product_providers : ∀ p ∈ s.products, p.providerAgentId ∈ s.wallet.agents
  member_keys : (s.members.map RoomMember.key).Nodup
  subscription_ids : (s.subscriptions.map AgentSubscription.subscriptionId).Nodup
  subscribers : (s.subscriptions.map AgentSubscription.productKey).Nodup
  amounts_pos : ∀ r ∈ s.subscriptions, 0 < r.amountMinor
  subscription_agents : ∀ r ∈ s.subscriptions,
    r.subscriberAgentId ∈ s.wallet.agents ∧ r.providerAgentId ∈ s.wallet.agents
  subscription_rooms : ∀ r ∈ s.subscriptions, ∀ roomId ∈ r.roomId, roomId ∈ s.rooms.map Room.roomId
  attempt_ids : (s.attempts.map SubscriptionChargeAttempt.attemptId).Nodup
  attempt_cycles : (s.attempts.map SubscriptionChargeAttempt.cycle).Nodup

instance (s : Store) : Decidable s.InRange :=
  decidable_of_iff
    (s.wallet.InRange ∧ (∀ p ∈ s.products, FitsBigInteger p.amountMinor) ∧
      (∀ r ∈ s.subscriptions, FitsBigInteger r.amountMinor ∧ r.consecutiveFailedAttempts < 2 ^ 31) ∧
      ∀ a ∈ s.attempts, a.attemptCount < 2 ^ 31)
    ⟨fun ⟨a, b, c, d⟩ => ⟨a, b, c, d⟩, fun ⟨a, b, c, d⟩ => ⟨a, b, c, d⟩⟩

instance (s : Store) : Decidable s.Integral :=
  decidable_of_iff
    ((s.wallet.Integral ∧ (s.products.map SubscriptionProduct.productId).Nodup ∧
        (s.products.map SubscriptionProduct.nameKey).Nodup ∧
        (∀ p ∈ s.products, p.providerAgentId ∈ s.wallet.agents) ∧ (s.members.map RoomMember.key).Nodup) ∧
      ((s.subscriptions.map AgentSubscription.subscriptionId).Nodup ∧
        (s.subscriptions.map AgentSubscription.productKey).Nodup ∧ (∀ r ∈ s.subscriptions, 0 < r.amountMinor) ∧
        (∀ r ∈ s.subscriptions, r.subscriberAgentId ∈ s.wallet.agents ∧ r.providerAgentId ∈ s.wallet.agents) ∧
        ∀ r ∈ s.subscriptions, ∀ roomId ∈ r.roomId, roomId ∈ s.rooms.map Room.roomId) ∧
      (s.attempts.map SubscriptionChargeAttempt.attemptId).Nodup ∧
      (s.attempts.map SubscriptionChargeAttempt.cycle).Nodup)
    ⟨fun ⟨⟨a, b, c, d, e⟩, ⟨f, g, h, i, j⟩, k, l⟩ => ⟨a, b, c, d, e, f, g, h, i, j, k, l⟩,
      fun ⟨a, b, c, d, e, f, g, h, i, j, k, l⟩ => ⟨⟨a, b, c, d, e⟩, ⟨f, g, h, i, j⟩, k, l⟩⟩

def constraints (s : Store) : Except Error Unit :=
  if ¬ s.InRange then .error .data else if ¬ s.Integral then .error .integrity else .ok ()

theorem integral_of_constraints {s : Store} (h : s.constraints = .ok ()) : s.Integral := by
  rw [constraints] at h
  split at h
  · cases h
  · split at h
    · cases h
    · rename_i hintegral
      exact not_not.mp hintegral

def findProduct (s : Store) (productId : ProductId) : Option SubscriptionProduct :=
  s.products.find? (·.productId = productId)

def findRoom (s : Store) (roomId : RoomId) : Option Room := s.rooms.find? (·.roomId = roomId)

def findSubscription (s : Store) (subscriptionId : SubscriptionId) : Option AgentSubscription :=
  s.subscriptions.find? (·.subscriptionId = subscriptionId)

def findSubscriber (s : Store) (key : ProductId × AgentId) : Option AgentSubscription :=
  s.subscriptions.find? (·.productKey = key)

def findAttempt (s : Store) (cycle : SubscriptionId × String) : Option SubscriptionChargeAttempt :=
  s.attempts.find? (·.cycle = cycle)

def withWallet (w : Wallet.Store) (s : Store) : Store := { s with wallet := w }

def addTransaction (s : Store) (t : WalletTransaction) : Store := s.withWallet (s.wallet.addTransaction t)

def addProduct (s : Store) (p : SubscriptionProduct) : Store := { s with products := s.products ++ [p] }

def archiveProduct (s : Store) (productId : ProductId) : Store :=
  { s with products := Table.update (·.productId = productId) (fun p => { p with status := .archived }) s.products }

def addSubscription (s : Store) (r : AgentSubscription) : Store := { s with subscriptions := s.subscriptions ++ [r] }

def putSubscription (s : Store) (r : AgentSubscription) : Store :=
  { s with subscriptions := Table.update (·.subscriptionId = r.subscriptionId) (fun _ => r) s.subscriptions }

def addAttempt (s : Store) (a : SubscriptionChargeAttempt) : Store := { s with attempts := s.attempts ++ [a] }

def putAttempt (s : Store) (a : SubscriptionChargeAttempt) : Store :=
  { s with attempts := Table.update (·.cycle = a.cycle) (fun _ => a) s.attempts }

def addMember (s : Store) (m : RoomMember) : Store := { s with members := s.members ++ [m] }

def removeMembers (s : Store) (p : RoomMember → Prop) [DecidablePred p] : Store :=
  { s with members := s.members.filter (¬ p ·) }

def recordCharge (s : Store) (c : Charge) : Store := { s with charges := s.charges ++ [c] }

end Store

end BotCord.Subscriptions
