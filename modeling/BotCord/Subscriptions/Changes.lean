import BotCord.Subscriptions.Lifecycle

/-!
# What a call changes

Every call opens a subscription, moves one, changes the rooms of some or leaves them alone, and the billing pass moves one after the other. `Change` says which, with the charges and attempts that go with it, and `Followed` is kept by every change.
-/

namespace BotCord.Subscriptions

open Transaction
open Wallet (TxId WalletTransaction TransferRequest Given keyedRows)

inductive RowsChanged (s v : Store) : History → Prop
  | rooms (hrows : ∀ r' ∈ v.subscriptions, ∃ r ∈ s.subscriptions, ∃ roomId, r' = { r with roomId })
      (hids : v.subscriptions.map AgentSubscription.subscriptionId =
        s.subscriptions.map AgentSubscription.subscriptionId) : RowsChanged s v []
  | opened (product : SubscriptionProduct) (request : SubscribeRequest) (now periodEnd : DateTime)
      (subscriptionId : SubscriptionId) (txId : TxId)
      (hrows : v.subscriptions =
        s.subscriptions ++ [newSubscription product request now periodEnd subscriptionId txId])
      (hfresh : subscriptionId ∉ s.subscriptions.map AgentSubscription.subscriptionId) :
      RowsChanged s v [(.activation, firstCharge product request now periodEnd subscriptionId txId)]
  | moved {r r' : AgentSubscription} {new : History} (hr : r ∈ s.subscriptions) (hmove : Moves r r' new)
      (hrows : v.subscriptions = (s.putSubscription r').subscriptions) : RowsChanged s v new

/-- A renewal is made under a key that was not charged, and leaves its attempt as charged. -/
structure Renews (s v : Store) (c : Charge) : Prop where
  uncharged : ∀ a ∈ s.attempts, a.cycle = c.cycle → a.status ≠ .succeeded
  charged : ∃ a ∈ v.attempts, a.cycle = c.cycle ∧ a.status = .succeeded ∧ a.txId = some c.txId

structure Change (s v : Store) (new : History) : Prop where
  rows : RowsChanged s v new
  charges : v.charges = s.charges ++ new.map Prod.snd
  kept : ∀ a ∈ s.attempts, a.status = .succeeded → a ∈ v.attempts
  renews : ∀ x ∈ new, x.1 = .renewal → Renews s v x.2

/-- Every subscription's status fits its failures, its charges are in order, and each renewal has its attempt. -/
structure BilledInOrder (s : Store) (h : History) : Prop where
  status : ∀ r ∈ s.subscriptions, r.StatusFits
  order : ∀ r ∈ s.subscriptions, InOrder r (h.of r.subscriptionId)
  attempted : ∀ x ∈ h, x.1 = .renewal → ∃ a ∈ s.attempts, a.cycle = x.2.cycle ∧ a.status = .succeeded ∧
    a.txId = some x.2.txId

structure Followed (s : Store) (h : History) : Prop extends BilledInOrder s h where
  known : ∀ x ∈ h, x.2.subscriptionId ∈ s.subscriptions.map AgentSubscription.subscriptionId
  charges : s.charges = h.map Prod.snd

theorem ids_putSubscription (s : Store) (r : AgentSubscription) :
    (s.putSubscription r).subscriptions.map AgentSubscription.subscriptionId =
      s.subscriptions.map AgentSubscription.subscriptionId :=
  Table.map_update fun _ _ hx => hx.symm

theorem mem_putSubscription {s : Store} {r x : AgentSubscription} (h : x ∈ (s.putSubscription r).subscriptions) :
    x = r ∨ x ∈ s.subscriptions ∧ x.subscriptionId ≠ r.subscriptionId := by
  obtain ⟨y, hy, hxy⟩ := Table.mem_update.mp h
  split at hxy
  · exact .inl hxy.symm
  · rename_i hne
    exact .inr ⟨hxy ▸ hy, hxy ▸ hne⟩

theorem newSubscription_fits (product : SubscriptionProduct) (request : SubscribeRequest) (now periodEnd : DateTime)
    (subscriptionId : SubscriptionId) (txId : TxId) :
    (newSubscription product request now periodEnd subscriptionId txId).StatusFits :=
  ⟨by simp [newSubscription], by simp [newSubscription], by simp [newSubscription], by simp [newSubscription]⟩

variable {s v u : Store} {h new : History}

theorem Followed.key_new (hs : Followed s h) {c : Charge} (hrenews : Renews s v c) :
    ∀ x ∈ h, x.1 = .renewal → x.2.cycle ≠ c.cycle := by
  intro x hx hrenewal hcycle
  obtain ⟨a, ha, hacycle, hsucceeded, -⟩ := hs.attempted x hx hrenewal
  exact hrenews.uncharged a ha (hacycle.trans hcycle) hsucceeded

theorem Followed.attempted_change (hs : Followed s h) (hchange : Change s v new) :
    ∀ x ∈ h ++ new, x.1 = .renewal → ∃ a ∈ v.attempts, a.cycle = x.2.cycle ∧ a.status = .succeeded ∧
      a.txId = some x.2.txId := by
  intro x hx hrenewal
  rcases List.mem_append.mp hx with hold | hnew
  · obtain ⟨a, ha, hcycle, hsucceeded, htx⟩ := hs.attempted x hold hrenewal
    exact ⟨a, hchange.kept a ha hsucceeded, hcycle, hsucceeded, htx⟩
  · exact (hchange.renews x hnew hrenewal).charged

theorem Followed.change (hs : Followed s h) (hchange : Change s v new) : Followed v (h ++ new) := by
  have hattempted := hs.attempted_change hchange
  have hcharges : v.charges = (h ++ new).map Prod.snd := by
    rw [hchange.charges, hs.charges, List.map_append]
  obtain ⟨hrows, -, -, hrenews⟩ := hchange
  cases hrows with
  | rooms hrows hids =>
    rw [List.append_nil] at hattempted hcharges ⊢
    refine ⟨⟨fun r' hr' => ?_, fun r' hr' => ?_, hattempted⟩, hids ▸ hs.known, hcharges⟩
    · obtain ⟨r, hr, roomId, rfl⟩ := hrows r' hr'
      have hfits := hs.status r hr
      exact ⟨hfits.pastDue, hfits.active, hfits.third, hfits.most⟩
    · obtain ⟨r, hr, roomId, rfl⟩ := hrows r' hr'
      exact (hs.order r hr).congr rfl rfl rfl
  | opened product request now periodEnd subscriptionId txId hrows hfresh =>
    refine ⟨⟨fun r hr => ?_, fun r hr => ?_, hattempted⟩, fun x hx => ?_, hcharges⟩
    · rw [hrows, List.mem_append, List.mem_singleton] at hr
      rcases hr with hold | rfl
      · exact hs.status r hold
      · exact newSubscription_fits ..
    · rw [hrows, List.mem_append, List.mem_singleton] at hr
      rw [History.of_append]
      rcases hr with hold | rfl
      · have hne : subscriptionId ≠ r.subscriptionId := fun heq =>
          hfresh (heq ▸ List.mem_map_of_mem hold)
        rw [History.of_eq_nil (h := [_]) (by simpa [firstCharge] using hne), List.append_nil]
        exact hs.order r hold
      · have hnone : h.of subscriptionId = [] := History.of_eq_nil fun x hx heq => hfresh (heq ▸ hs.known x hx)
        have hself : History.of [(.activation, firstCharge product request now periodEnd subscriptionId txId)]
            subscriptionId = _ := History.of_singleton _
        change InOrder _ (h.of subscriptionId ++ History.of _ subscriptionId)
        rw [hnone, List.nil_append, hself]
        exact .first rfl rfl
    · rw [hrows, List.map_append, List.mem_append]
      rcases List.mem_append.mp hx with hold | hnew
      · exact .inl (hs.known x hold)
      · rw [List.mem_singleton.mp hnew]
        exact .inr (List.mem_singleton_self _)
  | moved hr hmove hrows =>
    rename_i r r'
    obtain ⟨hid, hnewIds⟩ := hmove.subscriptionId
    refine ⟨⟨fun x hx => ?_, fun x hx => ?_, hattempted⟩, fun x hx => ?_, hcharges⟩
    · rw [hrows] at hx
      rcases mem_putSubscription hx with rfl | ⟨hold, -⟩
      · exact (hs.status r hr).moves hmove
      · exact hs.status x hold
    · rw [hrows] at hx
      rw [History.of_append]
      rcases mem_putSubscription hx with rfl | ⟨hold, hne⟩
      · have hall : History.of new x.subscriptionId = new :=
          List.filter_eq_self.mpr fun y hy => by simpa [hid] using hnewIds y hy
        rw [hall, hid]
        refine (hs.order r hr).moves hmove fun y hy hrenewal z hz => ?_
        exact hs.key_new (hrenews y hy hrenewal) z (History.mem_of.mp hz).1
      · rw [History.of_eq_nil fun y hy heq => hne (heq.symm.trans ((hnewIds y hy).trans hid.symm)), List.append_nil]
        exact hs.order x hold
    · rw [hrows, ids_putSubscription]
      rcases List.mem_append.mp hx with hold | hnew
      · exact hs.known x hold
      · rw [hnewIds x hnew]
        exact List.mem_map_of_mem hr

theorem Change.quiet (hsubscriptions : v.subscriptions = s.subscriptions) (hattempts : v.attempts = s.attempts)
    (hcharges : v.charges = s.charges) : Change s v [] := by
  refine ⟨.rooms (fun r hr => ⟨r, hsubscriptions ▸ hr, r.roomId, rfl⟩) (by rw [hsubscriptions]), by simp [hcharges],
    fun a ha _ => hattempts ▸ ha, by simp⟩

theorem Change.onlyMembers (hchange : Change s v new) (hmembers : OnlyMembers v u) : Change s u new := by
  obtain ⟨_, rfl⟩ := hmembers
  obtain ⟨hrows, hcharges, hkept, hrenews⟩ := hchange
  refine ⟨?_, hcharges, hkept, fun x hx hrenewal => ⟨(hrenews x hx hrenewal).1, (hrenews x hx hrenewal).2⟩⟩
  cases hrows with
  | rooms hrows hids => exact .rooms hrows hids
  | opened product request now periodEnd subscriptionId txId hrows hfresh =>
    exact .opened product request now periodEnd subscriptionId txId hrows hfresh
  | moved hr hmove hrows => exact .moved hr hmove hrows

theorem Change.moved {r r' : AgentSubscription} (hr : r ∈ s.subscriptions) (hmove : Moves r r' new)
    (hrows : v.subscriptions = (s.putSubscription r').subscriptions) (hattempts : v.attempts = s.attempts)
    (hcharges : v.charges = s.charges ++ new.map Prod.snd) (hnone : ∀ x ∈ new, x.1 ≠ .renewal) : Change s v new :=
  ⟨.moved hr hmove hrows, hcharges, fun _ ha _ => hattempts ▸ ha, fun x hx hrenewal => absurd hrenewal (hnone x hx)⟩

variable {d : Wallet.Draw}

theorem tables_after {r : TransferRequest} {tx : WalletTransaction} {σ τ : Session Store}
    (h : τ.view = σ.view ∧ tx ∈ keyedRows σ.view.wallet r.idempotencyKey .transfer r.fromOwnerId ∨
      tx = r.row d ∧ Moved r d σ.view τ.view) : ∃ w, τ.view = σ.view.withWallet w := by
  rcases h with ⟨hsame, -⟩ | ⟨-, hmoved⟩
  · exact ⟨σ.view.wallet, hsame⟩
  · exact hmoved.wallet.imp fun w hw => hw.1

variable {τ : Session Store}

theorem createTransfer_change {r : TransferRequest} {tx : WalletTransaction}
    (h : exec (createTransfer r d) ⟨s, s⟩ = (.ok tx, τ)) : Change s τ.view [] := by
  rcases createTransfer_ok h with ⟨rfl, -⟩ | ⟨-, -, hmoved⟩ | ⟨hview, -, -⟩
  · exact .quiet rfl rfl rfl
  · obtain ⟨w, hview, -⟩ := hmoved.wallet
    exact hview ▸ .quiet rfl rfl rfl
  · exact hview ▸ .quiet rfl rfl rfl

variable {product : SubscriptionProduct}

theorem createSubscriptionProduct_change {form : ProductForm} {productId : ProductId}
    (h : exec (createSubscriptionProduct form productId) ⟨s, s⟩ = (.ok product, τ)) : Change s τ.view [] :=
  createSubscriptionProduct_ok h ▸ .quiet rfl rfl rfl

theorem archiveSubscriptionProduct_change {productId : ProductId} {ownerId : String} {ownerType : ParticipantType}
    (h : exec (archiveSubscriptionProduct productId ownerId ownerType) ⟨s, s⟩ = (.ok product, τ)) :
    Change s τ.view [] := by
  rcases archiveSubscriptionProduct_ok h with hsame | harchived
  · exact hsame ▸ .quiet rfl rfl rfl
  · exact harchived ▸ .quiet rfl rfl rfl

theorem changeRooms_change (s : Store) (rooms : List Room) (members : List RoomMember) :
    Change s (s.changeRooms rooms members) [] := by
  refine ⟨.rooms (fun r' hr' => ?_) ?_, by simp [Store.changeRooms], fun _ ha _ => ha, by simp⟩
  · obtain ⟨r, hr, rfl⟩ := List.mem_map.mp hr'
    exact ⟨r, hr, _, rfl⟩
  · simp [Store.changeRooms]

variable {subscription : AgentSubscription} {now : DateTime}

theorem cancelSubscription_change {subscriptionId : SubscriptionId} {currentAgent : AgentId}
    (h : exec (cancelSubscription subscriptionId currentAgent now) ⟨s, s⟩ = (.ok subscription, τ)) :
    Change s τ.view [] := by
  rcases cancelSubscription_ok h with hsame | ⟨row, hrow, hopen, hmembers⟩
  · exact hsame ▸ .quiet rfl rfl rfl
  · have hcancelled : Change s (s.putSubscription (row.cancel now)) [] :=
      .moved hrow (.cancel now hopen) rfl rfl (by simp [Store.putSubscription]) (by simp)
    exact hcancelled.onlyMembers hmembers

variable {r : SubscribeRequest}

theorem openSubscription_change {d : Draw}
    (h : exec (openSubscription product r now d) ⟨s, s⟩ = (.ok subscription, τ)) :
    ∃ new, Change s τ.view new ∧ ∀ x ∈ new, x.1 = .activation := by
  obtain ⟨periodEnd, tx, m, -, htransfer, hopened⟩ := openSubscription_ok h
  obtain ⟨hcommitted, hmoved⟩ := createTransfer_given (σ := ⟨s, s⟩) (fun _ ht => ht) (given_firstTransfer ..) htransfer
  obtain ⟨w, hview⟩ := tables_after hmoved
  rcases hopened with hlost | ⟨hok, hmembers⟩
  · exact ⟨[], by rw [hlost, hcommitted]; exact .quiet rfl rfl rfl, by simp⟩
  · rw [hview] at hok hmembers
    refine ⟨[(.activation, firstCharge product r now periodEnd d.subscriptionId tx.txId)],
      Change.onlyMembers ?_ hmembers, by simp⟩
    refine ⟨.opened product r now periodEnd d.subscriptionId tx.txId rfl ?_, rfl, fun _ ha _ => ha, by simp⟩
    have hids : ((s.subscriptions ++ [newSubscription product r now periodEnd d.subscriptionId tx.txId]).map
      AgentSubscription.subscriptionId).Nodup := hok.subscription_ids
    rw [List.map_append, List.nodup_append] at hids
    exact fun hmem => hids.2.2 _ hmem _ (List.mem_singleton_self _) rfl

theorem reactivateSubscription_change {current subscription : AgentSubscription}
    (hcurrent : current ∈ s.subscriptions)
    (hcancelled : current.status = .cancelled)
    (h : exec (reactivateSubscription current product r now d) ⟨s, s⟩ = (.ok subscription, τ)) :
    ∃ new, Change s τ.view new ∧ ∀ x ∈ new, x.1 = .activation := by
  obtain ⟨periodEnd, tx, m, -, htransfer, hmembers⟩ := reactivateSubscription_ok h
  obtain ⟨-, hmoved⟩ := createTransfer_given (σ := ⟨s, s⟩) (fun _ ht => ht) (given_reactivationTransfer ..) htransfer
  obtain ⟨w, hview⟩ := tables_after hmoved
  rw [hview] at hmembers
  refine ⟨[(.activation, reactivationCharge current product now periodEnd tx.txId)],
    Change.onlyMembers ?_ hmembers, by simp⟩
  exact .moved hcurrent (.reactivate product r.roomId now periodEnd tx.txId hcancelled) rfl rfl rfl (by simp)

theorem moveToRoom_change {current subscription : AgentSubscription} {roomId : Option RoomId}
    (hcurrent : current ∈ s.subscriptions)
    (h : exec (moveToRoom current roomId) ⟨s, s⟩ = (.ok subscription, τ)) : Change s τ.view [] := by
  rcases moveToRoom_ok h with hsame | hmoved
  · exact hsame ▸ .quiet rfl rfl rfl
  · rw [hmoved]
    refine ⟨.rooms (fun r' hr' => ?_) (ids_putSubscription ..), by simp [Store.putSubscription], fun _ ha _ => ha,
      by simp⟩
    rcases mem_putSubscription hr' with rfl | ⟨hold, -⟩
    · exact ⟨current, hcurrent, roomId, rfl⟩
    · exact ⟨r', hold, r'.roomId, rfl⟩

theorem createSubscription_change {d : Draw}
    (h : exec (createSubscription r now d) ⟨s, s⟩ = (.ok subscription, τ)) :
    ∃ new, Change s τ.view new ∧ ∀ x ∈ new, x.1 = .activation := by
  obtain ⟨product, -, -, ⟨-, hopen⟩ | ⟨current, hcurrent, ⟨hcancelled, hreactivate⟩ | ⟨-, hroom⟩⟩⟩ :=
    createSubscription_ok h
  · exact openSubscription_change hopen
  · exact reactivateSubscription_change (List.mem_of_find?_eq_some hcurrent) hcancelled hreactivate
  · exact ⟨[], moveToRoom_change (List.mem_of_find?_eq_some hcurrent) hroom, by simp⟩

end BotCord.Subscriptions
