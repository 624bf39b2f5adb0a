import BotCord.Subscriptions.Service
import BotCord.Wallet.Specs

/-!
# What the subscription calls do

The transfer a charge makes, seen from the subscription tables, and the statements that follow it. A charge is paid by the row the lookup found, or by a row that the transfer just inserted; there is no third way, because a conflict on a key that the lookup did not find leaves nothing to return.
-/

/-!
## What a paid period is paid with

A charge goes through the wallet's idempotency lookup, which compares the initiator and the key and nothing else. `KeyServes` says of one charge, before it is made, that the lookup does no harm: nothing is stored under the key, or a transfer that pays for just this charge and has paid for no other.
-/

namespace BotCord.Subscriptions

open Wallet (TxId WalletTransaction TransferRequest)

def Charge.period (c : Charge) : SubscriptionId × DateTime × DateTime := (c.subscriptionId, c.periodStart, c.periodEnd)

def AgentSubscription.period (r : AgentSubscription) : SubscriptionId × DateTime × DateTime :=
  (r.subscriptionId, r.currentPeriodStart, r.currentPeriodEnd)

/-- The transfer is from the subscriber to the provider, completed, of the amount, and refers to the subscription. -/
structure Charge.PaidBy (c : Charge) (tx : WalletTransaction) : Prop where
  id : tx.txId = c.txId
  transfer : tx.type = .transfer
  completed : tx.status = .completed
  payer : tx.fromOwnerId = some c.subscriberAgentId
  payee : tx.toOwnerId = some c.providerAgentId
  amount : tx.amountMinor = c.amountMinor
  reference : tx.referenceId = some c.subscriptionId

instance (c : Charge) (tx : WalletTransaction) : Decidable (c.PaidBy tx) :=
  decidable_of_iff ((tx.txId = c.txId ∧ tx.type = .transfer ∧ tx.status = .completed) ∧
      (tx.fromOwnerId = some c.subscriberAgentId ∧ tx.toOwnerId = some c.providerAgentId) ∧
      tx.amountMinor = c.amountMinor ∧ tx.referenceId = some c.subscriptionId)
    ⟨fun ⟨⟨a, b, c⟩, ⟨d, e⟩, f, g⟩ => ⟨a, b, c, d, e, f, g⟩, fun ⟨a, b, c, d, e, f, g⟩ => ⟨⟨a, b, c⟩, ⟨d, e⟩, f, g⟩⟩

/-- Every period that was ever charged is paid by its own transfer, and every subscription names the one of its current period. -/
structure PaidOnce (s : Store) : Prop where
  paid : ∀ c ∈ s.charges, ∃ tx ∈ s.wallet.transactions, c.PaidBy tx
  once : ∀ c ∈ s.charges, ∀ c' ∈ s.charges, c.txId = c'.txId → c.period = c'.period
  current : ∀ r ∈ s.subscriptions, ∃ c ∈ s.charges, c.period = r.period ∧ r.lastChargeTxId = some c.txId ∧
    c.subscriberAgentId = r.subscriberAgentId ∧ c.providerAgentId = r.providerAgentId

/-- What the lookup under the key of a charge finds was made for this charge, and has paid for no other period. -/
def KeyServes (s : Store) (r : TransferRequest) (charge : TxId → Charge) : Prop :=
  ∀ tx ∈ Wallet.keyedRows s.wallet r.idempotencyKey .transfer r.fromOwnerId, (charge tx.txId).PaidBy tx ∧
    ∀ c ∈ s.charges, c.txId = tx.txId → c.period = (charge tx.txId).period
deriving Decidable

/-- The key serves a charge whose period ends as given, if it ends at all. -/
def PeriodServed (s : Store) (r : TransferRequest) (charge : DateTime → TxId → Charge) :
    Except Error DateTime → Prop
  | .ok periodEnd => KeyServes s r (charge periodEnd)
  | .error _ => True

instance (s : Store) (r : TransferRequest) (charge : DateTime → TxId → Charge) :
    ∀ periodEnd, Decidable (PeriodServed s r charge periodEnd)
  | .ok periodEnd => inferInstanceAs (Decidable (KeyServes s r (charge periodEnd)))
  | .error _ => isTrue trivial

/-- The checks that come before a subscription is opened or reactivated. -/
def Subscribable (s : Store) (product : SubscriptionProduct) (r : SubscribeRequest) : Prop :=
  product.status = .active ∧ ¬ (product.ownerType = .agent ∧ product.ownerId = r.subscriberAgentId) ∧
    product.providerAgentId ≠ r.subscriberAgentId ∧
    ∀ roomId ∈ r.roomId, (s.findRoom roomId).bind (·.requiredSubscriptionProductId) = some r.productId
deriving Decidable

/-- The charge that a call subscribing to the product makes: the first one, or that of a reactivation. -/
def ProductServed (s : Store) (product : SubscriptionProduct) (r : SubscribeRequest) (now : DateTime) (d : Draw) :
    Option AgentSubscription → Prop
  | none => PeriodServed s (firstTransfer product r d.subscriptionId)
      (fun periodEnd => firstCharge product r now periodEnd d.subscriptionId)
      (advancePeriod now product.billingInterval)
  | some current => current.status = .cancelled →
      PeriodServed s (reactivationTransfer current product r now) (reactivationCharge current product now)
        (advancePeriod now product.billingInterval)

instance (s : Store) (product : SubscriptionProduct) (r : SubscribeRequest) (now : DateTime) (d : Draw) :
    ∀ current, Decidable (ProductServed s product r now d current)
  | none => inferInstanceAs (Decidable (PeriodServed ..))
  | some _ => inferInstanceAs (Decidable (_ → PeriodServed ..))

def Chargeable (s : Store) (subscription : AgentSubscription) (now : DateTime) : Prop :=
  (subscription.status ≠ .cancelled ∧ subscription.nextChargeAt ≤ now) ∧ ¬ PlanChanged s subscription ∧
    ¬ CycleTaken s subscription
deriving Decidable

def BillingServed (s : Store) (now : DateTime) (subscriptionId : SubscriptionId) : Prop :=
  ∀ r ∈ s.findSubscription subscriptionId, Chargeable s r now →
    PeriodServed s (billingTransfer r) (billingCharge r) (advancePeriod r.currentPeriodEnd r.billingInterval)
deriving Decidable

/-- Whenever the operation comes to a charge, the charge's key serves it. -/
def Served (s : Store) : Operation → Prop
  | .subscribe r now d => ∀ product ∈ s.findProduct r.productId, Subscribable s product r →
      ProductServed s product r now d (s.findSubscriber (r.productId, r.subscriberAgentId))
  | .processDue now limit _ => ∀ subscriptionId ∈ dueSubscriptions s now limit, BillingServed s now subscriptionId
  | .createTransfer _ _ | .createProduct _ _ | .archiveProduct _ _ _ | .cancel _ _ _ | .changeRooms _ _ => True

instance (s : Store) : DecidablePred (Served s) := fun _ => by
  unfold Served
  split <;> infer_instance

/-- Wallets and products there may be any, but no subscription was made yet. -/
structure Fresh (s : Store) : Prop where
  integral : s.Integral
  subscriptions : s.subscriptions = []
  attempts : s.attempts = []
  charges : s.charges = []

end BotCord.Subscriptions

namespace BotCord.Subscriptions

open Transaction
open Wallet (TxId WalletTransaction TransferRequest Given keyedRows)

theorem onWallet_ok {α : Type} {x : Wallet.Tx α} {σ τ : Session Store} {a : α} :
    exec (onWallet x) σ = (.ok a, τ) ↔ ∃ m, exec x ⟨σ.committed.wallet, σ.view.wallet⟩ = (.ok a, m) ∧
      τ = { σ with view := σ.view.withWallet m.view } :=
  exec_zoom_ok

variable {σ τ : Session Wallet.Store} {ownerId : Wallet.OwnerId} {key : Option String}

theorem keyedTransaction_eq
    {found : Option WalletTransaction} (h : exec (Wallet.keyedTransaction key .transfer ownerId) σ = (.ok found, τ)) :
    keyedRows σ.view key .transfer ownerId = found.toList := by
  rw [Wallet.keyedTransaction, exec_view_bind] at h
  cases hrows : keyedRows σ.view key .transfer ownerId with
  | nil =>
    obtain ⟨rfl, -⟩ := exec_pure_ok.mp (hrows ▸ h)
    rfl
  | cons row rest =>
    have hfound := (Wallet.scalarOneOrNone_ok h).2
    cases found with
    | none =>
      rw [hrows] at h
      cases rest <;> simp [Wallet.scalarOneOrNone] at h
    | some tx => exact hrows ▸ hfound tx rfl

/-- The lookup of a call: what it finds is stored under the key, and if it finds nothing under a given key nothing is. -/
theorem existingTransaction_eq
    {found : Option WalletTransaction}
    (h : exec (Wallet.existingTransaction key .transfer ownerId) σ = (.ok found, τ)) :
    (∀ tx ∈ found, tx ∈ keyedRows σ.view key .transfer ownerId) ∧
      (Given key → found = none → keyedRows σ.view key .transfer ownerId = []) := by
  rw [Wallet.existingTransaction] at h
  split at h
  · have hrows := keyedTransaction_eq h
    constructor
    · rintro tx htx
      obtain rfl : found = some tx := htx
      simp [hrows]
    · rintro - rfl
      exact hrows
  · rename_i hkey
    obtain ⟨rfl, -⟩ := exec_pure_ok.mp h
    exact ⟨by simp, fun hgiven => absurd hgiven hkey⟩

/-- A transfer that was made: its row is new, and nothing but wallet tables changed. -/
structure Moved (r : TransferRequest) (d : Wallet.Draw) (s v : Store) : Prop where
  wallet : ∃ w, v = s.withWallet w ∧ w.transactions = s.wallet.transactions ++ [r.row d]
  fresh : ∀ t ∈ s.wallet.transactions, t.txId ≠ d.txId

variable {r : TransferRequest} {d : Wallet.Draw}

/-- A call that returns found a row under its key, made the transfer, or came second to a row committed meanwhile. -/
theorem createTransfer_ok {σ τ : Session Store} {tx : WalletTransaction}
    (h : exec (createTransfer r d) σ = (.ok tx, τ)) :
    (τ = σ ∧ tx ∈ keyedRows σ.view.wallet r.idempotencyKey .transfer r.fromOwnerId) ∨
      (τ.committed = σ.committed ∧ tx = r.row d ∧ Moved r d σ.view τ.view) ∨
      (τ.view = σ.committed ∧ tx ∈ keyedRows σ.committed.wallet r.idempotencyKey .transfer r.fromOwnerId ∧
        (Given r.idempotencyKey → keyedRows σ.view.wallet r.idempotencyKey .transfer r.fromOwnerId = [])) := by
  rw [createTransfer] at h
  obtain ⟨found, m, hlookup, h⟩ := exec_bind_ok.mp h
  obtain ⟨w, hexisting, rfl⟩ := onWallet_ok.mp hlookup
  obtain ⟨hfound, hnone⟩ := existingTransaction_eq hexisting
  obtain rfl := Wallet.existingTransaction_ok hexisting
  cases found with
  | some existing =>
    obtain ⟨rfl, rfl⟩ := exec_pure_ok.mp h
    exact .inl ⟨rfl, hfound existing rfl⟩
  | none =>
    right
    change exec (moveBalance r d) σ = _ at h
    rw [moveBalance] at h
    obtain ⟨u, m, hvalid, h⟩ := exec_bind_ok.mp h
    obtain ⟨w, hvalidate, rfl⟩ := onWallet_ok.mp hvalid
    obtain ⟨-, rfl⟩ := Wallet.validateTransfer_ok.mp hvalidate
    obtain ⟨⟨sender, receiver⟩, m, hlock, h⟩ := exec_bind_ok.mp h
    obtain ⟨w, hboth, rfl⟩ := onWallet_ok.mp hlock
    obtain ⟨v, rfl, hextends, -, -⟩ := Wallet.lockBoth_ok hboth
    simp only [exec_require_bind_ok, exec_modifyView_bind, exec_attempt_bind, flushStore, exec_flush] at h
    obtain ⟨-, h⟩ := h
    generalize hinserted : Store.addTransaction _ (r.row d) = inserted at h
    have hrows : inserted.wallet.transactions = σ.view.wallet.transactions ++ [r.row d] := by
      rw [← hinserted]
      exact congrArg (· ++ [r.row d]) hextends.transactions
    cases hflush : inserted.constraints with
    | ok u =>
      left
      simp only [hflush, exec_modifyView_bind, exec_flush_bind_ok] at h
      obtain ⟨-, h⟩ := h
      obtain ⟨rfl, rfl⟩ := exec_pure_ok.mp h
      refine ⟨rfl, rfl, ⟨Wallet.transferred inserted.wallet d r sender receiver, ?_, ?_⟩, ?_⟩
      · rw [← hinserted]
        rfl
      · exact hrows
      · intro t ht hid
        have hids := (Store.integral_of_constraints hflush).wallet.tx_ids
        rw [hrows, List.map_append, List.nodup_append] at hids
        exact hids.2.2 t.txId (List.mem_map_of_mem ht) (r.row d).txId
          (List.mem_map_of_mem (List.mem_singleton_self _)) hid
    | error e =>
      rw [hflush] at h
      cases e with
      | integrity =>
        right
        simp only [exec_rollback_bind] at h
        obtain ⟨w, hreload, hτ⟩ := onWallet_ok.mp h
        rw [Wallet.reloadExisting] at hreload
        obtain ⟨found, m, hkeyed, hreload⟩ := exec_bind_ok.mp hreload
        have hfound := keyedTransaction_eq hkeyed
        obtain rfl := Wallet.keyedTransaction_ok hkeyed
        cases found with
        | none => simp at hreload
        | some existing =>
          obtain ⟨rfl, rfl⟩ := exec_pure_ok.mp hreload
          exact ⟨congrArg Session.view hτ, by simp [show keyedRows σ.committed.wallet _ _ _ = _ from hfound],
            fun hgiven => hnone hgiven rfl⟩
      | _ => simp at h

theorem onWallet_error {α : Type} {x : Wallet.Tx α} {σ τ : Session Store} {e : Error} :
    exec (onWallet x) σ = (.error e, τ) ↔ ∃ e' m, exec x ⟨σ.committed.wallet, σ.view.wallet⟩ = (.error e', m) ∧
      e = .wallet e' ∧ τ = { σ with view := σ.view.withWallet m.view } :=
  exec_zoom_error

theorem constraints_error {s : Store} {e : Error} (h : s.constraints = .error e) : e = .data ∨ e = .integrity := by
  rw [Store.constraints] at h
  split at h
  · exact .inl (Except.error.inj h).symm
  · split at h
    · exact .inr (Except.error.inj h).symm
    · cases h

variable {e : Wallet.Error}

theorem lockWallet_error {assetCode : Wallet.AssetCode}
    (h : exec (Wallet.lockWallet ownerId assetCode) σ = (.error e, τ)) : isValueError e = false := by
  rw [Wallet.lockWallet, exec_view_bind] at h
  cases hfind : σ.view.findWallet (ownerId, assetCode) with
  | some wallet => simp [hfind] at h
  | none =>
    rw [hfind] at h
    simp only [exec_modifyView_bind] at h
    rcases exec_bind_error.mp h with hflush | ⟨u, m, -, hpure⟩
    · have herror := congrArg Prod.fst hflush
      rw [Wallet.flushStore, exec_flush, Wallet.Store.constraints] at herror
      split at herror
      · exact Except.error.inj herror ▸ rfl
      · split at herror
        · exact Except.error.inj herror ▸ rfl
        · cases herror
    · cases hpure

theorem lockBoth_error {fromOwnerId toOwnerId : Wallet.OwnerId} {assetCode : Wallet.AssetCode}
    (h : exec (Wallet.lockBoth fromOwnerId toOwnerId assetCode) σ = (.error e, τ)) : isValueError e = false := by
  rw [Wallet.lockBoth] at h
  split at h
  all_goals
    rcases exec_bind_error.mp h with hfirst | ⟨_, _, -, h⟩
    · exact lockWallet_error hfirst
    rcases exec_bind_error.mp h with hsecond | ⟨_, _, -, h⟩
    · exact lockWallet_error hsecond
    cases h

theorem keyedTransaction_error
    (h : exec (Wallet.keyedTransaction key .transfer ownerId) σ = (.error e, τ)) :
    isValueError e = false := by
  rw [Wallet.keyedTransaction, exec_view_bind] at h
  rcases hrows : keyedRows σ.view key .transfer ownerId with _ | ⟨row, _ | ⟨other, rest⟩⟩
  · simp [hrows, Wallet.scalarOneOrNone] at h
  · simp [hrows, Wallet.scalarOneOrNone] at h
  · obtain ⟨rfl, -⟩ : Wallet.Error.multipleResultsFound = e ∧ _ := by simpa [hrows, Wallet.scalarOneOrNone] using h
    rfl

theorem assertOwnerExists_error
    (h : exec (Wallet.assertOwnerExists ownerId) σ = (.error e, τ)) : τ = σ := by
  rw [Wallet.assertOwnerExists, exec_view_bind] at h
  simp only [apply_ite (fun x => exec x σ), exec_require, exec_throw] at h
  split_ifs at h <;> simp_all

theorem validateTransfer_error
    (h : exec (Wallet.validateTransfer r) σ = (.error e, τ)) : τ = σ := by
  rw [Wallet.validateTransfer] at h
  rcases exec_bind_error.mp h with hself | ⟨u, m, hself, hrest⟩
  · exact (exec_require_error.mp hself).2.2
  obtain rfl := (exec_require_ok.mp hself).2
  rcases exec_bind_error.mp hrest with hamount | ⟨u, m', hamount, howners⟩
  · exact (exec_require_error.mp hamount).2.2
  obtain rfl := (exec_require_ok.mp hamount).2
  rcases exec_bind_error.mp howners with hfrom | ⟨u, m'', hfrom, hto⟩
  · exact assertOwnerExists_error hfrom
  obtain rfl := (Wallet.assertOwnerExists_ok.mp hfrom).2
  exact assertOwnerExists_error hto

theorem moveBalance_valueError {σ τ : Session Store}
    (h : exec (moveBalance r d) σ = (.error (.wallet e), τ)) (hvalue : isValueError e = true) (he : e ≠ conflict) :
    ∃ w, τ = { σ with view := σ.view.withWallet w } ∧ w.transactions = σ.view.wallet.transactions := by
  rw [moveBalance] at h
  rcases exec_bind_error.mp h with hvalid | ⟨u, m, hvalid, hlocks⟩
  · obtain ⟨e', m, hvalidate, -, hτ⟩ := onWallet_error.mp hvalid
    obtain rfl := validateTransfer_error hvalidate
    exact ⟨σ.view.wallet, hτ, rfl⟩
  obtain ⟨w, hvalidate, rfl⟩ := onWallet_ok.mp hvalid
  obtain ⟨-, rfl⟩ := Wallet.validateTransfer_ok.mp hvalidate
  rcases exec_bind_error.mp hlocks with hlock | ⟨pair, m, hlock, hmove⟩
  · obtain ⟨e', m, hboth, he', -⟩ := onWallet_error.mp hlock
    obtain rfl := Error.wallet.inj he'
    exact absurd hvalue (by simp [lockBoth_error hboth])
  obtain ⟨w, hboth, rfl⟩ := onWallet_ok.mp hlock
  obtain ⟨v, rfl, hextends, -, -⟩ := Wallet.lockBoth_ok hboth
  rcases exec_bind_error.mp hmove with hrequire | ⟨u, m, hrequire, hinsert⟩
  · exact ⟨v, (exec_require_error.mp hrequire).2.2, hextends.transactions⟩
  obtain ⟨-, rfl⟩ := exec_require_ok.mp hrequire
  simp only [exec_modifyView_bind, exec_attempt_bind, flushStore, exec_flush] at hinsert
  generalize Store.addTransaction _ (r.row d) = inserted at hinsert
  cases hflush : inserted.constraints with
  | ok u =>
    simp only [hflush, exec_modifyView_bind] at hinsert
    rcases exec_bind_error.mp hinsert with hlast | ⟨u, m, -, hpure⟩
    · rw [exec_flush] at hlast
      rcases constraints_error (congrArg Prod.fst hlast) with hdata | hintegrity
      · cases hdata
      · cases hintegrity
    · cases hpure
  | error e' =>
    rw [hflush] at hinsert
    rcases constraints_error hflush with rfl | rfl
    · cases hinsert
    · simp only [exec_rollback_bind] at hinsert
      obtain ⟨e', m, hreload, he', -⟩ := onWallet_error.mp hinsert
      obtain rfl := Error.wallet.inj he'
      rw [Wallet.reloadExisting] at hreload
      rcases exec_bind_error.mp hreload with hkeyed | ⟨found, m, -, hraise⟩
      · exact absurd hvalue (by simp [keyedTransaction_error hkeyed])
      · cases found with
        | none => exact absurd (Except.error.inj (congrArg Prod.fst hraise)).symm he
        | some tx => cases hraise

/-- A transfer that raises a `ValueError` other than a conflict has at most created wallets. -/
theorem createTransfer_valueError {σ τ : Session Store}
    (h : exec (createTransfer r d) σ = (.error (.wallet e), τ)) (hvalue : isValueError e = true) (he : e ≠ conflict) :
    ∃ w, τ = { σ with view := σ.view.withWallet w } ∧ w.transactions = σ.view.wallet.transactions := by
  rw [createTransfer] at h
  rcases exec_bind_error.mp h with hlookup | ⟨found, m, hlookup, hmove⟩
  · obtain ⟨e', m, hexisting, he', -⟩ := onWallet_error.mp hlookup
    obtain rfl := Error.wallet.inj he'
    rw [Wallet.existingTransaction] at hexisting
    split at hexisting
    · exact absurd hvalue (by simp [keyedTransaction_error hexisting])
    · cases hexisting
  obtain ⟨w, hexisting, rfl⟩ := onWallet_ok.mp hlookup
  obtain rfl := Wallet.existingTransaction_ok hexisting
  cases found with
  | some existing => cases hmove
  | none => exact moveBalance_valueError hmove hvalue he

end BotCord.Subscriptions
