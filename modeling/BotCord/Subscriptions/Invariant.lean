import BotCord.Subscriptions.Returns

/-!
# What keeps the charges paid

`Sound` is what every call keeps: each charge of the history is paid by its own transfer, and each subscription names the charge of its current period and pays its product's provider. A call that charges keeps it when the key of the charge serves it; every other call keeps it because it touches neither the charges nor what a subscription names.
-/

namespace BotCord.Subscriptions

open Transaction
open Wallet (TxId WalletTransaction TransferRequest Given keyedRows)

structure Sound (s : Store) : Prop extends PaidOnce s where
  provided : ∀ r ∈ s.subscriptions, ∃ p ∈ s.products, p.productId = r.productId ∧ p.providerAgentId = r.providerAgentId

/-- What the charges of a subscription say about it. -/
def AgentSubscription.account (r : AgentSubscription) :
    (SubscriptionId × DateTime × DateTime) × Option TxId × AgentId × AgentId × ProductId :=
  (r.period, r.lastChargeTxId, r.subscriberAgentId, r.providerAgentId, r.productId)

structure Matches (r : TransferRequest) (charge : TxId → Charge) : Prop where
  id : ∀ txId, (charge txId).txId = txId
  payer : ∀ txId, r.fromOwnerId = (charge txId).subscriberAgentId
  payee : ∀ txId, r.toOwnerId = (charge txId).providerAgentId
  amount : ∀ txId, r.amountMinor = (charge txId).amountMinor
  reference : ∀ txId, r.referenceId = some (charge txId).subscriptionId

section Store

variable {s v : Store} {r r₀ : AgentSubscription} {c : Charge}

/-- A store with more transactions, the same charges, and the same account of every subscription. -/
theorem Sound.mono (h : Sound s) (hrows : s.wallet.transactions ⊆ v.wallet.transactions)
    (hcharges : v.charges = s.charges)
    (haccounts : ∀ r ∈ v.subscriptions, ∃ r₀ ∈ s.subscriptions, r₀.account = r.account)
    (hproducts : ∀ p ∈ s.products, ∃ p' ∈ v.products, p'.productId = p.productId ∧
      p'.providerAgentId = p.providerAgentId) : Sound v := by
  refine ⟨⟨?_, ?_, ?_⟩, ?_⟩
  · intro c hc
    obtain ⟨tx, htx, hpaid⟩ := h.paid c (hcharges ▸ hc)
    exact ⟨tx, hrows htx, hpaid⟩
  · rw [hcharges]
    exact h.once
  · intro r hr
    obtain ⟨r₀, hr₀, haccount⟩ := haccounts r hr
    obtain ⟨c, hc, hperiod, htx, hsubscriber, hprovider⟩ := h.current r₀ hr₀
    simp only [AgentSubscription.account, Prod.mk.injEq] at haccount
    obtain ⟨haperiod, hatx, hasubscriber, haprovider, -⟩ := haccount
    exact ⟨c, hcharges ▸ hc, hperiod.trans haperiod, hatx ▸ htx, hsubscriber.trans hasubscriber,
      hprovider.trans haprovider⟩
  · intro r hr
    obtain ⟨r₀, hr₀, haccount⟩ := haccounts r hr
    obtain ⟨p, hp, hid, hprovider⟩ := h.provided r₀ hr₀
    obtain ⟨p', hp', hid', hprovider'⟩ := hproducts p hp
    simp only [AgentSubscription.account, Prod.mk.injEq] at haccount
    obtain ⟨-, -, -, haprovider, haproduct⟩ := haccount
    exact ⟨p', hp', hid'.trans (hid.trans haproduct), hprovider'.trans (hprovider.trans haprovider)⟩

theorem Sound.of_same (h : Sound s) (hrows : s.wallet.transactions ⊆ v.wallet.transactions)
    (hcharges : v.charges = s.charges) (hsubscriptions : v.subscriptions = s.subscriptions)
    (hproducts : v.products = s.products) : Sound v :=
  h.mono hrows hcharges (fun r hr => ⟨r, hsubscriptions ▸ hr, rfl⟩) fun p hp => ⟨p, hproducts ▸ hp, rfl, rfl⟩

theorem Sound.putSubscription (h : Sound s) (hr₀ : r₀ ∈ s.subscriptions) (haccount : r₀.account = r.account) :
    Sound (s.putSubscription r) := by
  refine h.mono (fun _ ht => ht) rfl ?_ fun p hp => ⟨p, hp, rfl, rfl⟩
  intro x hx
  obtain ⟨y, hy, hxy⟩ := Table.mem_update.mp hx
  split at hxy
  · exact ⟨r₀, hr₀, hxy ▸ haccount⟩
  · exact ⟨y, hy, hxy ▸ rfl⟩

theorem Sound.putSubscription_charged (h : Sound s) (hc : c ∈ s.charges) (hperiod : c.period = r.period)
    (htx : r.lastChargeTxId = some c.txId) (hsubscriber : c.subscriberAgentId = r.subscriberAgentId)
    (hprovider : c.providerAgentId = r.providerAgentId)
    (hproduct : ∃ p ∈ s.products, p.productId = r.productId ∧ p.providerAgentId = r.providerAgentId) :
    Sound (s.putSubscription r) := by
  refine ⟨⟨h.paid, h.once, ?_⟩, ?_⟩
  · intro x hx
    obtain ⟨y, hy, hxy⟩ := Table.mem_update.mp hx
    split at hxy
    · exact hxy ▸ ⟨c, hc, hperiod, htx, hsubscriber, hprovider⟩
    · exact hxy ▸ h.current y hy
  · intro x hx
    obtain ⟨y, hy, hxy⟩ := Table.mem_update.mp hx
    split at hxy
    · exact hxy ▸ hproduct
    · exact hxy ▸ h.provided y hy

theorem Sound.addSubscription (h : Sound s) (hc : c ∈ s.charges) (hperiod : c.period = r.period)
    (htx : r.lastChargeTxId = some c.txId) (hsubscriber : c.subscriberAgentId = r.subscriberAgentId)
    (hprovider : c.providerAgentId = r.providerAgentId)
    (hproduct : ∃ p ∈ s.products, p.productId = r.productId ∧ p.providerAgentId = r.providerAgentId) :
    Sound (s.addSubscription r) := by
  refine ⟨⟨h.paid, h.once, ?_⟩, ?_⟩
  · intro x hx
    rcases List.mem_append.mp hx with hold | hnew
    · exact h.current x hold
    · obtain rfl := List.mem_singleton.mp hnew
      exact ⟨c, hc, hperiod, htx, hsubscriber, hprovider⟩
  · intro x hx
    rcases List.mem_append.mp hx with hold | hnew
    · exact h.provided x hold
    · exact List.mem_singleton.mp hnew ▸ hproduct

/-- A charge that a transaction pays, and no other period's charge names, may be recorded. -/
theorem Sound.recordCharge (h : Sound s) {tx : WalletTransaction} (htx : tx ∈ s.wallet.transactions)
    (hpaid : c.PaidBy tx) (hunused : ∀ c' ∈ s.charges, c'.txId = c.txId → c'.period = c.period) :
    Sound (s.recordCharge c) := by
  refine ⟨⟨?_, ?_, ?_⟩, h.provided⟩
  · intro x hx
    rcases List.mem_append.mp hx with hold | hnew
    · exact h.paid x hold
    · exact ⟨tx, htx, List.mem_singleton.mp hnew ▸ hpaid⟩
  · intro x hx y hy hid
    rcases List.mem_append.mp hx with hxold | hxnew <;> rcases List.mem_append.mp hy with hyold | hynew
    · exact h.once x hxold y hyold hid
    · obtain rfl := List.mem_singleton.mp hynew
      exact hunused x hxold hid
    · obtain rfl := List.mem_singleton.mp hxnew
      exact (hunused y hyold hid.symm).symm
    · rw [List.mem_singleton.mp hxnew, List.mem_singleton.mp hynew]
  · intro r hr
    obtain ⟨c', hc', hcurrent⟩ := h.current r hr
    exact ⟨c', List.mem_append_left _ hc', hcurrent⟩

end Store

theorem Sound.moved {r : TransferRequest} {d : Wallet.Draw} {s v : Store} (h : Sound s) (hv : Moved r d s v) :
    Sound v := by
  have hsubset := hv.subset
  obtain ⟨w, rfl, -⟩ := hv.wallet
  exact h.of_same hsubset rfl rfl rfl

/-- A transfer that returned for a charge whose key serves it pays the charge, and is no other period's. -/
theorem Sound.charge {σ τ : Session Store} (h : Sound σ.view)
    (hcommitted : σ.committed.wallet.transactions ⊆ σ.view.wallet.transactions) {r : TransferRequest}
    {charge : TxId → Charge} {d : Wallet.Draw} {tx : WalletTransaction} (hgiven : Given r.idempotencyKey)
    (hmatches : Matches r charge) (hserves : KeyServes σ.view r charge)
    (hrun : exec (createTransfer r d) σ = (.ok tx, τ)) :
    τ.committed = σ.committed ∧ (τ.view = σ.view ∨ Moved r d σ.view τ.view) ∧
      tx ∈ keyedRows τ.view.wallet r.idempotencyKey .transfer r.fromOwnerId ∧
      Sound (τ.view.recordCharge (charge tx.txId)) := by
  obtain ⟨hsession, ⟨hview, htx⟩ | ⟨rfl, hmoved⟩⟩ := createTransfer_given hcommitted hgiven hrun
  · obtain ⟨hpaid, hunused⟩ := hserves tx htx
    rw [hview]
    refine ⟨hsession, .inl rfl, htx, h.recordCharge (List.mem_of_mem_filter htx) hpaid fun c hc hid => ?_⟩
    exact hunused c hc (hid.trans (hmatches.id _))
  · have hrow : r.row d ∈ τ.view.wallet.transactions := by
      obtain ⟨w, hview, hrows⟩ := hmoved.wallet
      rw [hview]
      show _ ∈ w.transactions
      rw [hrows]
      exact List.mem_append_right _ (List.mem_singleton_self _)
    refine ⟨hsession, .inr hmoved, ?_, (h.moved hmoved).recordCharge hrow ?_ ?_⟩
    · rw [keyedRows, List.mem_filter]
      exact ⟨hrow, by simp [TransferRequest.row]⟩
    · exact ⟨(hmatches.id _).symm, rfl, rfl, congrArg some (hmatches.payer _), congrArg some (hmatches.payee _),
        hmatches.amount _, hmatches.reference _⟩
    · intro c hc hid
      obtain ⟨w, hview, -⟩ := hmoved.wallet
      have hold : c ∈ σ.view.charges := by
        rw [hview] at hc
        exact hc
      obtain ⟨t, ht, hpaid⟩ := h.paid c hold
      exact absurd (hpaid.id.trans (hid.trans (hmatches.id _))) (hmoved.fresh t ht)

end BotCord.Subscriptions

/-!
## The calls keep the charges paid

Everything but billing: transfers, products, rooms, subscribing and cancelling. Each call is read once, for what the session sees when it returns.
-/

namespace BotCord.Subscriptions

open Transaction
open Wallet (TxId WalletTransaction TransferRequest Given keyedRows)

theorem Sound.onlyMembers {s v : Store} (h : Sound s) (hv : OnlyMembers s v) : Sound v := by
  obtain ⟨_, rfl⟩ := hv
  exact h.of_same (fun _ ht => ht) rfl rfl rfl

variable {τ : Session Store} {s : Store}

theorem createTransfer_sound {r : TransferRequest} {d : Wallet.Draw}
    {tx : WalletTransaction} (h : Sound s) (hrun : exec (createTransfer r d) ⟨s, s⟩ = (.ok tx, τ)) :
    Sound τ.view := by
  rcases createTransfer_ok hrun with ⟨rfl, -⟩ | ⟨-, -, hmoved⟩ | ⟨hview, -, -⟩
  · exact h
  · exact h.moved hmoved
  · exact hview ▸ h

variable {product : SubscriptionProduct}

theorem createSubscriptionProduct_sound {form : ProductForm} {productId : ProductId}
    (h : Sound s)
    (hrun : exec (createSubscriptionProduct form productId) ⟨s, s⟩ = (.ok product, τ)) : Sound τ.view := by
  rw [createSubscriptionProduct_ok hrun]
  exact h.mono (fun _ ht => ht) rfl (fun r hr => ⟨r, hr, rfl⟩) fun p hp =>
    ⟨p, List.mem_append_left _ hp, rfl, rfl⟩

theorem archiveSubscriptionProduct_sound {productId : ProductId} {ownerId : String} {ownerType : ParticipantType}
    (h : Sound s)
    (hrun : exec (archiveSubscriptionProduct productId ownerId ownerType) ⟨s, s⟩ = (.ok product, τ)) :
    Sound τ.view := by
  rcases archiveSubscriptionProduct_ok hrun with hsame | harchived
  · exact hsame.symm ▸ h
  · rw [harchived]
    refine h.mono (fun _ ht => ht) rfl (fun r hr => ⟨r, hr, rfl⟩) fun p hp => ?_
    refine ⟨_, Table.mem_update.mpr ⟨p, hp, rfl⟩, ?_⟩
    split <;> exact ⟨rfl, rfl⟩

theorem changeRooms_sound {rooms : List Room} {members : List RoomMember} (h : Sound s) :
    Sound (s.changeRooms rooms members) := by
  refine h.mono (fun _ ht => ht) rfl ?_ fun p hp => ⟨p, hp, rfl, rfl⟩
  intro r hr
  obtain ⟨r₀, hr₀, rfl⟩ := List.mem_map.mp hr
  exact ⟨r₀, hr₀, rfl⟩

variable {subscription : AgentSubscription} {now : DateTime}

theorem cancelSubscription_sound {subscriptionId : SubscriptionId} {currentAgent : AgentId}
    (h : Sound s)
    (hrun : exec (cancelSubscription subscriptionId currentAgent now) ⟨s, s⟩ = (.ok subscription, τ)) :
    Sound τ.view := by
  rcases cancelSubscription_ok hrun with hsame | ⟨row, hrow, -, hmembers⟩
  · exact hsame.symm ▸ h
  · have hcancelled : Sound (s.putSubscription (row.cancel now)) := h.putSubscription hrow rfl
    exact hcancelled.onlyMembers hmembers

/-- The product that a subscriber found keeps its provider through a transfer and its record. -/
theorem product_after {s v : Store} {r : TransferRequest} {d : Wallet.Draw} (h : v = s ∨ Moved r d s v) :
    v.products = s.products ∧ v.subscriptions = s.subscriptions := by
  rcases h with rfl | hmoved
  · exact ⟨rfl, rfl⟩
  · obtain ⟨w, rfl, -⟩ := hmoved.wallet
    exact ⟨rfl, rfl⟩

variable {r : SubscribeRequest}

theorem openSubscription_sound {d : Draw}
    (h : Sound s) (hproduct : product ∈ s.products)
    (hserved : ProductServed s product r now d none)
    (hrun : exec (openSubscription product r now d) ⟨s, s⟩ = (.ok subscription, τ)) : Sound τ.view := by
  obtain ⟨periodEnd, tx, m, hadvance, htransfer, hopened⟩ := openSubscription_ok hrun
  have hserves : KeyServes s (firstTransfer product r d.subscriptionId)
      (firstCharge product r now periodEnd d.subscriptionId) := by
    rw [ProductServed, hadvance] at hserved
    exact hserved
  have hmatches : Matches (firstTransfer product r d.subscriptionId)
      (firstCharge product r now periodEnd d.subscriptionId) :=
    ⟨fun _ => rfl, fun _ => rfl, fun _ => rfl, fun _ => rfl, fun _ => rfl⟩
  obtain ⟨hcommitted, hmoved, -, hcharged⟩ := Sound.charge (σ := ⟨s, s⟩) h (fun _ ht => ht)
    (given_firstTransfer ..) hmatches hserves htransfer
  obtain ⟨hproducts, -⟩ := product_after hmoved
  rcases hopened with hlost | ⟨-, hmembers⟩
  · rw [hlost, hcommitted]
    exact h
  · have hadded : Sound ((m.view.addSubscription
        (newSubscription product r now periodEnd d.subscriptionId tx.txId)).recordCharge
          (firstCharge product r now periodEnd d.subscriptionId tx.txId)) :=
      hcharged.addSubscription (List.mem_append_right _ (List.mem_singleton_self _)) rfl rfl rfl rfl
        ⟨product, hproducts ▸ hproduct, rfl, rfl⟩
    exact hadded.onlyMembers hmembers

theorem reactivateSubscription_sound {current subscription : AgentSubscription}
    {d : Draw} (h : Sound s)
    (hcurrent : current ∈ s.subscriptions) (hproduct : product ∈ s.products)
    (hids : (s.products.map SubscriptionProduct.productId).Nodup) (hid : product.productId = current.productId)
    (hserved : PeriodServed s (reactivationTransfer current product r now) (reactivationCharge current product now)
      (advancePeriod now product.billingInterval))
    (hrun : exec (reactivateSubscription current product r now d.wallet) ⟨s, s⟩ = (.ok subscription, τ)) :
    Sound τ.view := by
  obtain ⟨periodEnd, tx, m, hadvance, htransfer, hmembers⟩ := reactivateSubscription_ok hrun
  rw [hadvance] at hserved
  have hmatches : Matches (reactivationTransfer current product r now)
      (reactivationCharge current product now periodEnd) :=
    ⟨fun _ => rfl, fun _ => rfl, fun _ => rfl, fun _ => rfl, fun _ => rfl⟩
  obtain ⟨-, hmoved, -, hcharged⟩ := Sound.charge (σ := ⟨s, s⟩) h (fun _ ht => ht)
    (given_reactivationTransfer ..) hmatches hserved htransfer
  obtain ⟨hproducts, -⟩ := product_after hmoved
  obtain ⟨p, hp, hpid, hprovider⟩ := h.provided current hcurrent
  obtain rfl : p = product := List.inj_on_of_nodup_map hids hp hproduct (hpid.trans hid.symm)
  have hreactivated : Sound ((m.view.putSubscription (current.reactivate r.roomId now periodEnd tx.txId)).recordCharge
      (reactivationCharge current p now periodEnd tx.txId)) :=
    hcharged.putSubscription_charged (List.mem_append_right _ (List.mem_singleton_self _)) rfl rfl rfl hprovider
      ⟨p, hproducts ▸ hp, hpid, hprovider⟩
  exact hreactivated.onlyMembers hmembers

theorem moveToRoom_sound {current subscription : AgentSubscription} {roomId : Option RoomId}
    (h : Sound s) (hcurrent : current ∈ s.subscriptions)
    (hrun : exec (moveToRoom current roomId) ⟨s, s⟩ = (.ok subscription, τ)) : Sound τ.view := by
  rcases moveToRoom_ok hrun with hsame | hmoved
  · exact hsame.symm ▸ h
  · rw [hmoved]
    exact h.putSubscription hcurrent rfl

theorem createSubscription_sound {d : Draw}
    (h : Sound s) (hintegral : s.Integral) (hserved : Served s (.subscribe r now d))
    (hrun : exec (createSubscription r now d) ⟨s, s⟩ = (.ok subscription, τ)) : Sound τ.view := by
  obtain ⟨product, hfind, hsubscribable, hways⟩ := createSubscription_ok hrun
  have hserved := hserved product hfind hsubscribable
  have hproduct : product ∈ s.products := List.mem_of_find?_eq_some hfind
  rcases hways with ⟨hnone, hopen⟩ | ⟨current, hcurrent, ⟨hcancelled, hreactivate⟩ | ⟨-, hroom⟩⟩
  · rw [show s.findSubscriber _ = none from hnone] at hserved
    exact openSubscription_sound h hproduct hserved hopen
  · rw [show s.findSubscriber _ = some current from hcurrent] at hserved
    have hkey : current.productKey = (r.productId, r.subscriberAgentId) := by
      simpa using List.find?_some hcurrent
    have hid : product.productId = r.productId := by simpa using List.find?_some hfind
    exact reactivateSubscription_sound h (List.mem_of_find?_eq_some hcurrent) hproduct hintegral.product_ids
      (hid.trans (congrArg Prod.fst hkey).symm) (hserved hcancelled) hreactivate
  · exact moveToRoom_sound h (List.mem_of_find?_eq_some hcurrent) hroom

end BotCord.Subscriptions
