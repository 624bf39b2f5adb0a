import BotCord.Subscriptions.Store
import Mathlib.Data.List.Sort

/-!
# The subscription service

`hub/services/subscriptions.py`, function by function. The clock a call reads and the ids it generates are its arguments. `createTransfer` is the wallet's, in a session that holds the subscription tables too: a conflict on the transaction row rolls all of them back.
-/

namespace BotCord.Subscriptions

open Transaction
open Wallet (OwnerId AssetCode TxId WalletTransaction TransferRequest Given)

abbrev Tx (α : Type) := Transaction Store Error α

def flushStore : Tx Unit := flush Store.constraints

def onWallet {α : Type} (x : Wallet.Tx α) : Tx α := zoom Store.wallet Store.withWallet .wallet x

def moveBalance (r : TransferRequest) (d : Wallet.Draw) : Tx WalletTransaction := do
  onWallet (Wallet.validateTransfer r)
  let (sender, receiver) ← onWallet (Wallet.lockBoth r.fromOwnerId r.toOwnerId r.assetCode)
  require (r.amountMinor ≤ sender.availableBalanceMinor) (.wallet (.value "Insufficient balance"))
  modifyView (·.addTransaction (r.row d))
  match ← attempt flushStore with
  | .error .integrity =>
    rollback
    onWallet (Wallet.reloadExisting r.idempotencyKey .transfer r.fromOwnerId)
  | .error e => throw e
  | .ok () =>
    modifyView fun s => s.withWallet (Wallet.transferred s.wallet d r sender receiver)
    flushStore
    return r.row d

def createTransfer (r : TransferRequest) (d : Wallet.Draw) : Tx WalletTransaction := do
  match ← onWallet (Wallet.existingTransaction r.idempotencyKey .transfer r.fromOwnerId) with
  | some tx => return tx
  | none => moveBalance r d

def maxFailedBillingAttempts : ℕ := 3

def never : DateTime := { year := 9999, month := 12, day := 31 }

def advancePeriod (anchor : DateTime) : BillingInterval → Except Error DateTime
  | .once => .ok never
  | .week => match anchor.addDays 7 with
    | some later => .ok later
    | none => .error .overflow
  | .month =>
    let month := anchor.monthOf.next
    if month.year ≤ maxYear then .ok (anchor.onDay month (min anchor.day month.days)) else .error .yearOutOfRange

def billingCycleKey (subscription : AgentSubscription) : String := subscription.currentPeriodEnd.isoformat

structure ProductForm where
  ownerId : String
  ownerType : ParticipantType
  providerAgentId : AgentId
  name : String
  amountMinor : ℤ
  billingInterval : BillingInterval
  assetCode : AssetCode := "COIN"

def createSubscriptionProduct (form : ProductForm) (productId : ProductId) : Tx SubscriptionProduct := do
  require (0 < form.amountMinor) (.value "Amount must be positive")
  require (form.providerAgentId ≠ "") (.value "provider_agent_id is required")
  require (¬ (form.ownerType = .agent ∧ form.providerAgentId ≠ form.ownerId))
    (.value "Agent-owned product provider must be the owner agent")
  let product : SubscriptionProduct :=
    { productId, ownerId := form.ownerId, ownerType := form.ownerType, providerAgentId := form.providerAgentId
      name := form.name, assetCode := form.assetCode, amountMinor := form.amountMinor
      billingInterval := form.billingInterval, status := .active }
  modifyView (·.addProduct product)
  match ← attempt flushStore with
  | .ok () => return product
  | .error .integrity =>
    rollback
    throw (.value "Subscription product already exists")
  | .error e => throw e

def archiveSubscriptionProduct (productId : ProductId) (ownerId : String) (ownerType : ParticipantType) :
    Tx SubscriptionProduct := do
  match (← view).findProduct productId with
  | none => throw (.value "Subscription product not found")
  | some product =>
    require (product.ownerId = ownerId ∧ product.ownerType = ownerType)
      (.value "Not authorized to archive this product")
    if product.status = .archived then return product
    modifyView (·.archiveProduct productId)
    flushStore
    return { product with status := .archived }

/-- The rooms a new subscription opens: its own, or without one every room that requires the product. -/
def subscriptionRooms (s : Store) (subscription : AgentSubscription) : List Room :=
  match subscription.roomId with
  | some roomId =>
    match s.findRoom roomId with
    | some room => if room.requiredSubscriptionProductId = some subscription.productId then [room] else []
    | none => []
  | none => s.rooms.filter (·.requiredSubscriptionProductId = some subscription.productId)

/-- The room has a limit on its members, and they have come to it. -/
def Room.Full (room : Room) (count : ℕ) : Prop := ∃ limit ∈ room.maxMembers, limit ≤ count
deriving Decidable

def joinRoom (agentId : AgentId) (room : Room) : Tx Unit := do
  let s ← view
  if (room.roomId, agentId) ∈ s.members.map RoomMember.key then return ()
  let currentCount := (s.members.filter (·.roomId = room.roomId)).length
  require (¬ room.Full currentCount)
    (.value ("Subscription room " ++ room.roomId ++ " is full; cannot complete subscription"))
  let join : Tx Unit := do
    modifyView (·.addMember { roomId := room.roomId, agentId, role := .member })
    flushStore
  match ← attempt (nested join) with
  | .ok () => return ()
  | .error .integrity => throw (.value ("Failed to auto-join subscription room " ++ room.roomId))
  | .error e => throw e

def joinRooms (agentId : AgentId) : List Room → Tx Unit
  | [] => return ()
  | room :: rest => do
    joinRoom agentId room
    joinRooms agentId rest

def autoJoinSubscriptionRooms (subscription : AgentSubscription) : Tx Unit := do
  joinRooms subscription.subscriberAgentId (subscriptionRooms (← view) subscription)

/-- The memberships a subscription gave: in its room, or without one in every room that requires the product. -/
def memberships (s : Store) (subscription : AgentSubscription) (m : RoomMember) : Bool :=
  decide (m.agentId = subscription.subscriberAgentId) &&
    match subscription.roomId with
    | some roomId => decide (m.roomId = roomId)
    | none => (s.findRoom m.roomId).any (·.requiredSubscriptionProductId = some subscription.productId)

def revokeSubscriptionRoomAccess (subscription : AgentSubscription) : Tx Unit := do
  let s ← view
  modifyView (·.removeMembers fun m => memberships s subscription m)
  flushStore

def revokeSubscriptionRoomAccessForSubscription (subscription : AgentSubscription) : Tx Unit := do
  match subscription.roomId with
  | none => return ()
  | some roomId =>
    modifyView (·.removeMembers fun m => m.roomId = roomId ∧ m.agentId = subscription.subscriberAgentId)
    flushStore

structure SubscribeRequest where
  productId : ProductId
  subscriberAgentId : AgentId
  idempotencyKey : Option String := none
  roomId : Option RoomId := none

/-- `idempotency_key or fallback` -/
def keyOr (key : Option String) (fallback : String) : String :=
  match key with
  | none => fallback
  | some text => if text = "" then fallback else text

/-- The ids one subscription generates. -/
structure Draw where
  subscriptionId : SubscriptionId
  wallet : Wallet.Draw

def firstTransfer (product : SubscriptionProduct) (r : SubscribeRequest) (subscriptionId : SubscriptionId) :
    TransferRequest :=
  { fromOwnerId := r.subscriberAgentId, toOwnerId := product.providerAgentId, amountMinor := product.amountMinor
    idempotencyKey := some (keyOr r.idempotencyKey ("subscription:first:" ++ subscriptionId))
    referenceType := some "subscription_charge", referenceId := some subscriptionId
    assetCode := product.assetCode }

def newSubscription (product : SubscriptionProduct) (r : SubscribeRequest) (now periodEnd : DateTime)
    (subscriptionId : SubscriptionId) (txId : TxId) : AgentSubscription :=
  { subscriptionId, productId := product.productId, subscriberAgentId := r.subscriberAgentId
    providerAgentId := product.providerAgentId, roomId := r.roomId, assetCode := product.assetCode
    amountMinor := product.amountMinor, billingInterval := product.billingInterval, status := .active
    currentPeriodStart := now, currentPeriodEnd := periodEnd, nextChargeAt := periodEnd
    cancelAtPeriodEnd := false, lastChargedAt := some now, lastChargeTxId := some txId
    consecutiveFailedAttempts := 0 }

def firstCharge (product : SubscriptionProduct) (r : SubscribeRequest) (now periodEnd : DateTime)
    (subscriptionId : SubscriptionId) (txId : TxId) : Charge :=
  ⟨subscriptionId, now, periodEnd, r.subscriberAgentId, product.providerAgentId, product.amountMinor, txId⟩

def openSubscription (product : SubscriptionProduct) (r : SubscribeRequest) (now : DateTime) (d : Draw) :
    Tx AgentSubscription := do
  let periodEnd ← fromExcept (advancePeriod now product.billingInterval)
  let tx ← createTransfer (firstTransfer product r d.subscriptionId) d.wallet
  let subscription := newSubscription product r now periodEnd d.subscriptionId tx.txId
  modifyView (·.addSubscription subscription)
  modifyView (·.recordCharge (firstCharge product r now periodEnd d.subscriptionId tx.txId))
  match ← attempt flushStore with
  | .ok () =>
    autoJoinSubscriptionRooms subscription
    return subscription
  | .error .integrity =>
    rollback
    match (← view).findSubscriber (r.productId, r.subscriberAgentId) with
    | some current => return current
    | none => throw (.value "Subscription already exists")
  | .error e => throw e

def reactivationTransfer (subscription : AgentSubscription) (product : SubscriptionProduct) (r : SubscribeRequest)
    (now : DateTime) : TransferRequest :=
  { fromOwnerId := subscription.subscriberAgentId, toOwnerId := product.providerAgentId
    amountMinor := product.amountMinor
    idempotencyKey := some (keyOr r.idempotencyKey
      ("subscription:reactivate:" ++ subscription.subscriptionId ++ ":" ++ now.isoformat))
    referenceType := some "subscription_charge", referenceId := some subscription.subscriptionId
    assetCode := product.assetCode }

def AgentSubscription.reactivate (subscription : AgentSubscription) (roomId : Option RoomId) (now periodEnd : DateTime)
    (txId : TxId) : AgentSubscription :=
  { subscription with
    status := .active, currentPeriodStart := now, currentPeriodEnd := periodEnd, nextChargeAt := periodEnd
    cancelAtPeriodEnd := false, cancelledAt := none, lastChargedAt := some now, lastChargeTxId := some txId
    consecutiveFailedAttempts := 0, roomId := roomId.or subscription.roomId }

def reactivationCharge (subscription : AgentSubscription) (product : SubscriptionProduct) (now periodEnd : DateTime)
    (txId : TxId) : Charge :=
  ⟨subscription.subscriptionId, now, periodEnd, subscription.subscriberAgentId, product.providerAgentId,
    product.amountMinor, txId⟩

def reactivateSubscription (subscription : AgentSubscription) (product : SubscriptionProduct) (r : SubscribeRequest)
    (now : DateTime) (d : Wallet.Draw) : Tx AgentSubscription := do
  let periodEnd ← fromExcept (advancePeriod now product.billingInterval)
  let tx ← createTransfer (reactivationTransfer subscription product r now) d
  let subscription' := subscription.reactivate r.roomId now periodEnd tx.txId
  modifyView (·.putSubscription subscription')
  modifyView (·.recordCharge (reactivationCharge subscription product now periodEnd tx.txId))
  flushStore
  autoJoinSubscriptionRooms subscription'
  return subscription'

def assertRoomMatches (r : SubscribeRequest) : Tx Unit := do
  match r.roomId with
  | none => return ()
  | some roomId =>
    match (← view).findRoom roomId with
    | none => throw (.value "Room not found")
    | some room =>
      require (room.requiredSubscriptionProductId = some r.productId)
        (.value "Product does not match room's required subscription")

/-- Subscribing to what is subscribed to already: at most the room changes. -/
def moveToRoom (current : AgentSubscription) (roomId : Option RoomId) : Tx AgentSubscription :=
  if roomId.isSome ∧ current.roomId ≠ roomId then do
    modifyView (·.putSubscription { current with roomId })
    flushStore
    return { current with roomId }
  else return current

def createSubscription (r : SubscribeRequest) (now : DateTime) (d : Draw) : Tx AgentSubscription := do
  match (← view).findProduct r.productId with
  | none => throw (.value "Subscription product not found")
  | some product =>
    require (product.status = .active) (.value "Subscription product is archived")
    require (¬ (product.ownerType = .agent ∧ product.ownerId = r.subscriberAgentId))
      (.value "Cannot subscribe to your own product")
    require (product.providerAgentId ≠ r.subscriberAgentId) (.value "Cannot subscribe to your own product")
    assertRoomMatches r
    match (← view).findSubscriber (r.productId, r.subscriberAgentId) with
    | none => openSubscription product r now d
    | some current =>
      if current.status = .cancelled then reactivateSubscription current product r now d.wallet
      else moveToRoom current r.roomId

def AgentSubscription.cancel (subscription : AgentSubscription) (now : DateTime) : AgentSubscription :=
  { subscription with status := .cancelled, cancelledAt := some now, cancelAtPeriodEnd := false }

def cancelSubscription (subscriptionId : SubscriptionId) (currentAgent : AgentId) (now : DateTime) :
    Tx AgentSubscription := do
  match (← view).findSubscription subscriptionId with
  | none => throw (.value "Subscription not found")
  | some subscription =>
    require (currentAgent = subscription.subscriberAgentId ∨ currentAgent = subscription.providerAgentId)
      (.value "Not authorized to cancel this subscription")
    if subscription.status = .cancelled then return subscription
    modifyView (·.putSubscription (subscription.cancel now))
    revokeSubscriptionRoomAccess subscription
    flushStore
    return subscription.cancel now

/-- The ids the billing of one subscription generates. -/
structure BillingDraw where
  attemptId : String
  wallet : Wallet.Draw

inductive Outcome
  | charged | failed | skipped | cancelledDueToPlanChange

def ensureChargeAttempt (subscription : AgentSubscription) (now : DateTime) (attemptId : String) :
    Tx SubscriptionChargeAttempt := do
  let billingCycleKey := billingCycleKey subscription
  match (← view).findAttempt (subscription.subscriptionId, billingCycleKey) with
  | none =>
    let row : SubscriptionChargeAttempt :=
      { attemptId, subscriptionId := subscription.subscriptionId, billingCycleKey, status := .pending
        scheduledAt := subscription.nextChargeAt, attemptedAt := now, attemptCount := 1 }
    modifyView (·.addAttempt row)
    flushStore
    return row
  | some row =>
    let row := { row with
      attemptCount := row.attemptCount + 1, status := .pending, scheduledAt := subscription.nextChargeAt
      attemptedAt := now, failureReason := none, txId := none }
    modifyView (·.putAttempt row)
    flushStore
    return row

def billingTransfer (subscription : AgentSubscription) : TransferRequest :=
  { fromOwnerId := subscription.subscriberAgentId, toOwnerId := subscription.providerAgentId
    amountMinor := subscription.amountMinor
    idempotencyKey := some ("subscription:charge:" ++ subscription.subscriptionId ++ ":" ++ billingCycleKey subscription)
    referenceType := some "subscription_charge", referenceId := some subscription.subscriptionId
    assetCode := subscription.assetCode }

def billingCharge (subscription : AgentSubscription) (periodEnd : DateTime) (txId : TxId) : Charge :=
  ⟨subscription.subscriptionId, subscription.currentPeriodEnd, periodEnd, subscription.subscriberAgentId,
    subscription.providerAgentId, subscription.amountMinor, txId⟩

/-- A charge that could not be paid: tried again a day later, and cancelled after the last try. -/
def AgentSubscription.fail (subscription : AgentSubscription) (now retryAt : DateTime) : AgentSubscription :=
  let failed := subscription.consecutiveFailedAttempts + 1
  let pastDue := { subscription with consecutiveFailedAttempts := failed, status := .pastDue, nextChargeAt := retryAt }
  if maxFailedBillingAttempts ≤ failed then { pastDue with status := .cancelled, cancelledAt := some now } else pastDue

/-- A charge that was paid: the next period begins where the last one ended. -/
def AgentSubscription.advance (subscription : AgentSubscription) (now periodEnd : DateTime) (txId : TxId) :
    AgentSubscription :=
  { subscription with
    currentPeriodStart := subscription.currentPeriodEnd, currentPeriodEnd := periodEnd, nextChargeAt := periodEnd
    status := .active, lastChargedAt := some now, lastChargeTxId := some txId, consecutiveFailedAttempts := 0 }

/-- The room of the subscription requires another product by now, or is gone. -/
def PlanChanged (s : Store) (subscription : AgentSubscription) : Prop :=
  ∃ roomId ∈ subscription.roomId,
    (s.findRoom roomId).bind (·.requiredSubscriptionProductId) ≠ some subscription.productId
deriving Decidable

def CycleTaken (s : Store) (subscription : AgentSubscription) : Prop :=
  ∃ row ∈ s.findAttempt (subscription.subscriptionId, billingCycleKey subscription), row.status ≠ .failed
deriving Decidable

def isValueError : Wallet.Error → Bool
  | .value _ | .unsupportedOwner _ => true
  | _ => false

/-- What `create_transfer` raises after it rolled the session back. -/
def conflict : Wallet.Error := .value "Idempotency conflict"

def recordFailure (subscription : AgentSubscription) (row : SubscriptionChargeAttempt) (now : DateTime)
    (reason : Wallet.Error) : Tx Outcome := do
  match now.addDays 1 with
  | none => throw .overflow
  | some retryAt =>
    let subscription' := subscription.fail now retryAt
    modifyView (·.putAttempt { row with status := .failed, failureReason := some reason })
    modifyView (·.putSubscription subscription')
    if subscription'.status = .cancelled then revokeSubscriptionRoomAccess subscription'
    flushStore
    return .failed

def recordSuccess (subscription : AgentSubscription) (row : SubscriptionChargeAttempt) (now : DateTime)
    (txId : TxId) : Tx Outcome := do
  let periodEnd ← fromExcept (advancePeriod subscription.currentPeriodEnd subscription.billingInterval)
  modifyView (·.putAttempt { row with status := .succeeded, txId := some txId, failureReason := none })
  modifyView (·.putSubscription (subscription.advance now periodEnd txId))
  modifyView (·.recordCharge (billingCharge subscription periodEnd txId))
  flushStore
  return .charged

def chargeCycle (subscription : AgentSubscription) (now : DateTime) (d : BillingDraw) : Tx Outcome := do
  let row ← ensureChargeAttempt subscription now d.attemptId
  match ← attempt (createTransfer (billingTransfer subscription) d.wallet) with
  | .ok tx => recordSuccess subscription row now tx.txId
  | .error (.wallet e) =>
    -- after the rollback the row objects are expired, and the handler reads them
    if e = conflict then throw .missingGreenlet
    else if isValueError e then recordFailure subscription row now e
    else throw (.wallet e)
  | .error e => throw e

def chargeSubscription (subscription : AgentSubscription) (now : DateTime) (d : BillingDraw) : Tx Outcome := do
  if subscription.status = .cancelled ∨ ¬ subscription.nextChargeAt ≤ now then return .skipped
  let s ← view
  if PlanChanged s subscription then do
    modifyView (·.putSubscription (subscription.cancel now))
    revokeSubscriptionRoomAccessForSubscription subscription
    flushStore
    return .cancelledDueToPlanChange
  else if CycleTaken s subscription then return .skipped
  else chargeCycle subscription now d

structure BillingResult where
  processedCount : ℕ := 0
  chargedCount : ℕ := 0
  failedCount : ℕ := 0
  skippedCount : ℕ := 0

/-- How one pass of the loop counts: no subscription, an outcome, or an exception. -/
def BillingResult.count (result : BillingResult) : Except Error (Option Outcome) → BillingResult
  | .ok none => { result with skippedCount := result.skippedCount + 1 }
  | .ok (some .charged) =>
    { result with processedCount := result.processedCount + 1, chargedCount := result.chargedCount + 1 }
  | .ok (some .failed) =>
    { result with processedCount := result.processedCount + 1, failedCount := result.failedCount + 1 }
  | .ok (some _) =>
    { result with processedCount := result.processedCount + 1, skippedCount := result.skippedCount + 1 }
  | .error _ => { result with failedCount := result.failedCount + 1 }

/-- `begin_nested`: a failure undoes what the call wrote. A call that rolled the whole session back has left no savepoint to return to. -/
def beginNested {α : Type} (x : Tx α) : Tx α := fun s =>
  match exec x s with
  | (.ok a, t) => (.ok a, t)
  | (.error .missingGreenlet, _) => (.error .missingGreenlet, ⟨s.committed, s.committed⟩)
  | (.error e, _) => (.error e, s)

def billSubscription (subscriptionId : SubscriptionId) (now : DateTime) (d : BillingDraw) : Tx (Option Outcome) := do
  match (← view).findSubscription subscriptionId with
  | none => return none
  | some subscription => return some (← chargeSubscription subscription now d)

/-- The loop over the due subscriptions; the `k`th pass draws its ids from `draws k`. -/
def billEach (now : DateTime) (draws : ℕ → BillingDraw) (k : ℕ) (result : BillingResult) :
    List SubscriptionId → Tx BillingResult
  | [] => return result
  | subscriptionId :: rest => do
    let outcome ← attempt (beginNested (billSubscription subscriptionId now (draws k)))
    billEach now draws (k + 1) (result.count outcome) rest

def dueSubscriptions (s : Store) (now : DateTime) (limit : ℕ) : List SubscriptionId :=
  (((s.subscriptions.filter fun r => r.status ≠ .cancelled ∧ r.nextChargeAt ≤ now).insertionSort
    fun a b => a.nextChargeAt ≤ b.nextChargeAt).take limit).map AgentSubscription.subscriptionId

def processDueSubscriptionBillings (now : DateTime) (limit : ℕ) (draws : ℕ → BillingDraw) : Tx BillingResult := do
  billEach now draws 0 {} (dueSubscriptions (← view) now limit)

inductive Operation
  | createTransfer (r : TransferRequest) (d : Wallet.Draw)
  | createProduct (form : ProductForm) (productId : ProductId)
  | archiveProduct (productId : ProductId) (ownerId : String) (ownerType : ParticipantType)
  | subscribe (r : SubscribeRequest) (now : DateTime) (d : Draw)
  | cancel (subscriptionId : SubscriptionId) (currentAgent : AgentId) (now : DateTime)
  | processDue (now : DateTime) (limit : ℕ) (draws : ℕ → BillingDraw)
  /-- The room service changes its tables; a room that is gone takes itself out of the subscriptions. -/
  | changeRooms (rooms : List Room) (members : List RoomMember)

def Store.changeRooms (s : Store) (rooms : List Room) (members : List RoomMember) : Store :=
  { s with
    rooms, members
    subscriptions := s.subscriptions.map fun r =>
      { r with roomId := r.roomId.filter (· ∈ rooms.map Room.roomId) } }

def Operation.call : Operation → Tx Unit
  | .createTransfer r d => void (Subscriptions.createTransfer r d)
  | .createProduct form productId => void (createSubscriptionProduct form productId)
  | .archiveProduct productId ownerId ownerType => void (archiveSubscriptionProduct productId ownerId ownerType)
  | .subscribe r now d => void (createSubscription r now d)
  | .cancel subscriptionId currentAgent now => void (cancelSubscription subscriptionId currentAgent now)
  | .processDue now limit draws => void (processDueSubscriptionBillings now limit draws)
  | .changeRooms rooms members => modifyView (·.changeRooms rooms members)

/-- One operation as one transaction: the call, and the flush of the commit. -/
def Operation.apply (op : Operation) (s : Store) : Store := (atomically (do op.call; flushStore) s).2

def service : System Store Operation := System.total fun s op => op.apply s

end BotCord.Subscriptions
