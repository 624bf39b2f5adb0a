import BotCord.Delivery.Hub
import BotCord.Foundation.Keyed
import BotCord.Subscriptions.Specs

/-!
# Unbinding an agent

`_unbind_agent_from_user` and `delete_openclaw_host` of `app/routers/users.py` beside the wallet and the subscription service: `_ensure_agent_unbind_allowed` statement by statement, `_cancel_agent_subscriptions`, and the commit. A query sees what its own session has changed so far. A wallet operation runs under the locks of its rows and is one step. Subscribing, cancelling and the billing of one subscription read without a lock; each reads first, runs as the service does when it commits, and writes of the row it had read only the columns that it changed. A billing pass is a call for each of its subscriptions. The checks that refuse an unbinding for other reasons are left out.
-/

namespace BotCord.Unbinding

open Transaction
open Subscriptions
open Delivery (column)

abbrev UserId := String

abbrev HostId := String

structure Agent where
  agentId : AgentId
  userId : Option UserId := none
  openclawHostId : Option HostId := none

def Agent.bind (userId : UserId) (openclawHostId : Option HostId) (a : Agent) : Agent :=
  { a with userId := some userId, openclawHostId }

theorem Agent.agentId_bind (userId : UserId) (openclawHostId : Option HostId) (a : Agent) :
    (a.bind userId openclawHostId).agentId = a.agentId := rfl

/-- The queries of `_ensure_agent_unbind_allowed`, in their order. -/
inductive Check
  | wallet | subscribers | transactions | topups | withdrawals | chargeAttempts
deriving DecidableEq

def checks : List Check := [.wallet, .subscribers, .transactions, .topups, .withdrawals, .chargeAttempts]

section Guard

variable (s : Store) (agentId : AgentId)

def Sells (p : SubscriptionProduct) : Prop := p.ownerId = agentId ∨ p.providerAgentId = agentId
deriving Decidable

def Involves (r : AgentSubscription) : Prop := r.subscriberAgentId = agentId ∨ r.providerAgentId = agentId
deriving Decidable

def Check.Passes : Check → Prop
  | .wallet => ∀ w ∈ s.wallet.wallets, w.ownerId = agentId → w.availableBalanceMinor = 0 ∧ w.lockedBalanceMinor = 0
  | .subscribers => ∀ p ∈ s.products, Sells agentId p → p.status = .active →
    ∀ r ∈ s.subscriptions, r.productId = p.productId → r.status ≠ .active
  | .transactions => ∀ t ∈ s.wallet.transactions,
    t.fromOwnerId = some agentId ∨ t.toOwnerId = some agentId ∨ t.initiatorOwnerId = some agentId →
      t.status ≠ .pending ∧ t.status ≠ .processing
  | .topups => ∀ t ∈ s.wallet.topups, t.ownerId = agentId → t.status ≠ .pending
  | .withdrawals => ∀ w ∈ s.wallet.withdrawals, w.ownerId = agentId → ¬ w.Open
  | .chargeAttempts => ∀ a ∈ s.attempts, a.status = .pending →
    ∀ r ∈ s.subscriptions, r.subscriptionId = a.subscriptionId → ¬ Involves agentId r

instance : DecidablePred (Check.Passes s agentId)
  | .wallet => inferInstanceAs (Decidable (∀ w ∈ s.wallet.wallets, _))
  | .subscribers => inferInstanceAs (Decidable (∀ p ∈ s.products, _ → _ → ∀ r ∈ s.subscriptions, _))
  | .transactions => inferInstanceAs (Decidable (∀ t ∈ s.wallet.transactions, _))
  | .topups => inferInstanceAs (Decidable (∀ t ∈ s.wallet.topups, _))
  | .withdrawals => inferInstanceAs (Decidable (∀ w ∈ s.wallet.withdrawals, _))
  | .chargeAttempts => inferInstanceAs (Decidable (∀ a ∈ s.attempts, _ → ∀ r ∈ s.subscriptions, _))

/-- The subscriptions that `_cancel_agent_subscriptions` loads. -/
def ownActive : List AgentSubscription := s.subscriptions.filter fun r => r.subscriberAgentId = agentId ∧ r.status = .active

end Guard

/-- What is written of a subscription that was changed after it was loaded. -/
def save (loaded changed current : AgentSubscription) : AgentSubscription :=
  { current with
    roomId := column loaded.roomId changed.roomId current.roomId
    status := column loaded.status changed.status current.status
    currentPeriodStart := column loaded.currentPeriodStart changed.currentPeriodStart current.currentPeriodStart
    currentPeriodEnd := column loaded.currentPeriodEnd changed.currentPeriodEnd current.currentPeriodEnd
    nextChargeAt := column loaded.nextChargeAt changed.nextChargeAt current.nextChargeAt
    cancelAtPeriodEnd := column loaded.cancelAtPeriodEnd changed.cancelAtPeriodEnd current.cancelAtPeriodEnd
    cancelledAt := column loaded.cancelledAt changed.cancelledAt current.cancelledAt
    lastChargedAt := column loaded.lastChargedAt changed.lastChargedAt current.lastChargedAt
    lastChargeTxId := column loaded.lastChargeTxId changed.lastChargeTxId current.lastChargeTxId
    consecutiveFailedAttempts :=
      column loaded.consecutiveFailedAttempts changed.consecutiveFailedAttempts current.consecutiveFailedAttempts }

/-- A call ran on one store and left another; of the row that it had loaded only the changes are written. -/
def saveLoaded (loaded : AgentSubscription) (s v : Store) : Store :=
  { v with
    subscriptions := v.subscriptions.map fun changed =>
      if changed.subscriptionId = loaded.subscriptionId then
        ((s.findSubscription changed.subscriptionId).map (save loaded changed)).getD changed
      else changed }

/-- The end of `cancel_subscription`, when it has the row. -/
def cancelLoaded (subscription : AgentSubscription) (now : DateTime) : Tx Unit := do
  modifyView (·.putSubscription (subscription.cancel now))
  revokeSubscriptionRoomAccess subscription

/-- The end of `create_subscription`, when it has the product and what there is under it. -/
def subscribeLoaded (r : SubscribeRequest) (product : SubscriptionProduct) (now : DateTime) (d : Draw) :
    Option AgentSubscription → Tx AgentSubscription
  | none => openSubscription product r now d
  | some current =>
    if current.status = .cancelled then reactivateSubscription current product r now d.wallet
    else moveToRoom current r.roomId

/-- A call as one transaction. -/
def commit (x : Tx Unit) (s : Store) : Store := (atomically (do x; flushStore) s).2

/-- The agents that an unbinding has left to check, those that it has checked, and the subscriptions that it cancels. -/
structure Detachment where
  host : Option HostId := none
  now : DateTime
  rest : List AgentId := []
  agents : List AgentId := []
  cancelled : List AgentSubscription := []

namespace Detachment

variable (u : Detachment)

/-- A store with the subscriptions set to cancelled, as the session sees it and as it is committed. -/
def cancel (s : Store) : Store :=
  { s with
    subscriptions := s.subscriptions.map fun r =>
      ((u.cancelled.find? (·.subscriptionId = r.subscriptionId)).map fun loaded => save loaded (loaded.cancel u.now) r).getD r }

/-- The active subscriptions of an agent are loaded and set to cancelled. -/
def check (agentId : AgentId) (s : Store) : Detachment :=
  { u with agents := agentId :: u.agents, cancelled := ownActive (u.cancel s) agentId ++ u.cancelled }

def detach (a : Agent) : Agent :=
  { a with userId := none, openclawHostId := if u.host = none then a.openclawHostId else none }

theorem agentId_detach (a : Agent) : (u.detach a).agentId = a.agentId := rfl

end Detachment

inductive Event
  | unbound (agentId : AgentId)
  /-- A subscription is made, or made again. -/
  | made (subscriptionId : SubscriptionId)
  | billed (charge : Charge)
deriving DecidableEq

/-- A call, with what it has read; a billing knows how much had happened when it read. -/
inductive Call
  | unbind (u : Detachment) (agentId : AgentId) (checks : List Check)
  | detach (u : Detachment)
  | subscribe (r : SubscribeRequest) (product : SubscriptionProduct) (current : Option AgentSubscription) (now : DateTime)
    (d : Draw)
  | cancel (subscription : AgentSubscription) (now : DateTime)
  | bill (subscription : AgentSubscription) (seen : ℕ) (now : DateTime) (d : BillingDraw)

structure Hub where
  store : Store
  agents : Keyed Agent.agentId := {}
  /-- What has happened, the latest first. -/
  log : List Event := []
  calls : ℕ → Option Call := fun _ => none

inductive Action
  | wallet (op : Wallet.Operation)
  | createProduct (form : ProductForm) (productId : ProductId)
  | archiveProduct (productId : ProductId) (ownerId : String) (ownerType : ParticipantType)
  | changeRooms (rooms : List Room) (members : List RoomMember)
  | bindAgent (userId : UserId) (agentId : AgentId) (openclawHostId : Option HostId)
  | unbindAgent (i : ℕ) (userId : UserId) (agentId : AgentId) (now : DateTime)
  | deleteOpenclawHost (i : ℕ) (userId : UserId) (hostId : HostId) (now : DateTime)
  | createSubscription (i : ℕ) (r : SubscribeRequest) (now : DateTime) (d : Draw)
  | cancelSubscription (i : ℕ) (subscriptionId : SubscriptionId) (currentAgent : AgentId) (now : DateTime)
  | processDue (i : ℕ) (subscriptionId : SubscriptionId) (now : DateTime) (d : BillingDraw)
  /-- The next statement of a call, the last of which commits. -/
  | next (i : ℕ)
  | crash (i : ℕ)

namespace Hub

variable (d : Hub) (i : ℕ)

def goto (call : Call) : Hub := { d with calls := Function.update d.calls i (some call) }

def begin (call : Call) : Option Hub := if d.calls i = none then some (d.goto i call) else none

def finish : Hub := { d with calls := Function.update d.calls i none }

def settle (v : Store) (event : Charge → Event) : Hub :=
  { d with
    store := v
    log := (v.charges.drop d.store.charges.length).map event ++ d.log
    calls := Function.update d.calls i none }

def proceed (u : Detachment) : Hub :=
  match u.rest with
  | [] => d.goto i (.detach u)
  | agentId :: rest => d.goto i (.unbind { u with rest } agentId checks)

/-- The next statement of a call. -/
def next : Call → Hub
  | .unbind u agentId (check :: rest) =>
    if check.Passes (u.cancel d.store) agentId then d.goto i (.unbind u agentId rest) else d.finish i
  | .unbind u agentId [] => d.proceed i (u.check agentId d.store)
  | .detach u =>
    { d with
      store := u.cancel d.store
      agents := d.agents.modify (·.agentId ∈ u.agents) u.detach u.agentId_detach
      log := u.agents.map .unbound ++ d.log
      calls := Function.update d.calls i none }
  | .subscribe r product current now draw =>
    let v := commit (void (subscribeLoaded r product now draw current)) d.store
    d.settle i (current.elim v fun loaded => saveLoaded loaded d.store v) fun c => .made c.subscriptionId
  | .cancel loaded now =>
    d.settle i (saveLoaded loaded d.store (commit (cancelLoaded loaded now) d.store)) .billed
  | .bill loaded _ now draw =>
    d.settle i (saveLoaded loaded d.store (commit (void (chargeSubscription loaded now draw)) d.store)) .billed

end Hub

/-- The Hub with any number of calls. -/
def hub : System Hub Action where
  step d
    | .wallet op => some { d with store := d.store.withWallet (op.apply d.store.wallet) }
    | .createProduct form productId => some { d with store := (Operation.createProduct form productId).apply d.store }
    | .archiveProduct productId ownerId ownerType =>
      some { d with store := (Operation.archiveProduct productId ownerId ownerType).apply d.store }
    | .changeRooms rooms members => some { d with store := (Operation.changeRooms rooms members).apply d.store }
    | .bindAgent userId agentId openclawHostId =>
      match d.agents.get? agentId with
      | none => (d.agents.insert? { agentId, userId := some userId, openclawHostId }).map fun agents => { d with agents }
      | some a =>
        if a.userId = none then
          some { d with
            agents := d.agents.modify (·.agentId = agentId) (·.bind userId openclawHostId) (Agent.agentId_bind userId openclawHostId) }
        else none
    | .unbindAgent i userId agentId now =>
      if ∃ a ∈ d.agents, a.agentId = agentId ∧ a.userId = some userId then
        d.begin i (.unbind { now } agentId checks)
      else none
    | .deleteOpenclawHost i userId hostId now =>
      if d.calls i = none then
        let agents := d.agents.rows.filter fun a => a.userId = some userId ∧ a.openclawHostId = some hostId
        some (d.proceed i { host := some hostId, now, rest := agents.map (·.agentId) })
      else none
    | .createSubscription i r now draw =>
      match d.store.findProduct r.productId with
      | none => none
      | some product =>
        if Subscribable d.store product r then
          d.begin i (.subscribe r product (d.store.findSubscriber (r.productId, r.subscriberAgentId)) now draw)
        else none
    | .cancelSubscription i subscriptionId currentAgent now =>
      match d.store.findSubscription subscriptionId with
      | none => none
      | some loaded => if Involves currentAgent loaded ∧ loaded.status ≠ .cancelled then d.begin i (.cancel loaded now) else none
    | .processDue i subscriptionId now draw =>
      match d.store.findSubscription subscriptionId with
      | none => none
      | some loaded => d.begin i (.bill loaded d.log.length now draw)
    | .next i => (d.calls i).map (d.next i)
    | .crash i => (d.calls i).map fun _ => d.finish i

end BotCord.Unbinding
