import BotCord.Subscriptions.Specs

/-!
# What a call that returned did

One lemma for each call of the service, about the store its session sees when it returns. Nothing is said of the charges' keys here: what a charge found or made is left as the run of `createTransfer` that it was.
-/

namespace BotCord.Subscriptions

open Transaction
open Wallet (TxId WalletTransaction TransferRequest Given keyedRows)

theorem Moved.subset {r : TransferRequest} {d : Wallet.Draw} {s v : Store} (h : Moved r d s v) :
    s.wallet.transactions ⊆ v.wallet.transactions := by
  obtain ⟨w, rfl, hrows⟩ := h.wallet
  intro t ht
  show t ∈ w.transactions
  rw [hrows]
  exact List.mem_append_left _ ht

theorem keyedRows_subset {s v : Wallet.Store} {key : Option String} {ownerId : Wallet.OwnerId}
    (h : s.transactions ⊆ v.transactions) : keyedRows s key .transfer ownerId ⊆ keyedRows v key .transfer ownerId := by
  intro t ht
  rw [keyedRows, List.mem_filter] at ht ⊢
  exact ⟨h ht.1, ht.2⟩

/-- A transfer under a given key, in a session that sees everything that is committed, found its row or made it. -/
theorem createTransfer_given {r : TransferRequest} {d : Wallet.Draw} {σ τ : Session Store} {tx : WalletTransaction}
    (hcommitted : σ.committed.wallet.transactions ⊆ σ.view.wallet.transactions) (hgiven : Given r.idempotencyKey)
    (h : exec (createTransfer r d) σ = (.ok tx, τ)) :
    τ.committed = σ.committed ∧ (τ.view = σ.view ∧ tx ∈ keyedRows σ.view.wallet r.idempotencyKey .transfer r.fromOwnerId ∨
      tx = r.row d ∧ Moved r d σ.view τ.view) := by
  rcases createTransfer_ok h with ⟨rfl, htx⟩ | ⟨hsession, rfl, hmoved⟩ | ⟨-, htx, hnone⟩
  · exact ⟨rfl, .inl ⟨rfl, htx⟩⟩
  · exact ⟨hsession, .inr ⟨rfl, hmoved⟩⟩
  · have hmem := keyedRows_subset hcommitted htx
    rw [hnone hgiven] at hmem
    cases hmem

theorem given_some {text : String} (h : text ≠ "") : Given (some text) := ⟨by simp, by simpa using h⟩

theorem append_ne_empty {start rest : String} (h : start ≠ "") : start ++ rest ≠ "" := by
  intro hempty
  apply h
  have hlists := congrArg String.toList hempty
  rw [String.toList_append, show ("" : String).toList = [] from rfl, List.append_eq_nil_iff] at hlists
  exact String.toList_inj.mp hlists.1

theorem given_keyOr {key : Option String} {fallback : String} (h : fallback ≠ "") : Given (some (keyOr key fallback)) := by
  apply given_some
  unfold keyOr
  split
  · exact h
  · split
    · exact h
    · assumption

theorem given_firstTransfer (product : SubscriptionProduct) (r : SubscribeRequest) (subscriptionId : SubscriptionId) :
    Given (firstTransfer product r subscriptionId).idempotencyKey :=
  given_keyOr (append_ne_empty (by decide))

theorem given_reactivationTransfer (current : AgentSubscription) (product : SubscriptionProduct) (r : SubscribeRequest)
    (now : DateTime) : Given (reactivationTransfer current product r now).idempotencyKey :=
  given_keyOr (append_ne_empty (append_ne_empty (append_ne_empty (by decide))))

theorem given_billingTransfer (r : AgentSubscription) : Given (billingTransfer r).idempotencyKey :=
  given_some (append_ne_empty (append_ne_empty (append_ne_empty (by decide))))

def OnlyMembers (s v : Store) : Prop := ∃ members, v = { s with members }

theorem OnlyMembers.refl (s : Store) : OnlyMembers s s := ⟨s.members, rfl⟩

theorem OnlyMembers.trans {s v u : Store} (h : OnlyMembers s v) (h' : OnlyMembers v u) : OnlyMembers s u := by
  obtain ⟨_, rfl⟩ := h
  obtain ⟨members, rfl⟩ := h'
  exact ⟨members, rfl⟩

variable {u : Unit} {σ τ : Session Store}

theorem joinRoom_ok {agentId : AgentId} {room : Room}
    (h : exec (joinRoom agentId room) σ = (.ok u, τ)) : τ.committed = σ.committed ∧ OnlyMembers σ.view τ.view := by
  rw [joinRoom, exec_view_bind] at h
  split at h
  · obtain ⟨-, rfl⟩ := exec_pure_ok.mp h
    exact ⟨rfl, .refl _⟩
  · simp only [exec_require_bind_ok, exec_attempt_bind] at h
    obtain ⟨-, hjoin⟩ := h
    generalize hnested : exec (nested _) σ = outcome at hjoin
    rcases outcome with ⟨e | u, m⟩
    · cases e <;> cases hjoin
    · obtain ⟨-, rfl⟩ := exec_pure_ok.mp hjoin
      have hadded := exec_nested_ok.mp hnested
      rw [exec_modifyView_bind, flushStore, exec_flush_ok] at hadded
      obtain ⟨-, rfl⟩ := hadded
      exact ⟨rfl, _, rfl⟩

theorem joinRooms_ok {agentId : AgentId} {rooms : List Room}
    (h : exec (joinRooms agentId rooms) σ = (.ok u, τ)) : τ.committed = σ.committed ∧ OnlyMembers σ.view τ.view := by
  induction rooms generalizing σ with
  | nil =>
    obtain ⟨-, rfl⟩ := exec_pure_ok.mp h
    exact ⟨rfl, .refl _⟩
  | cons room rest ih =>
    obtain ⟨u, m, hroom, hrest⟩ := exec_bind_ok.mp h
    obtain ⟨hcommitted, hmembers⟩ := joinRoom_ok hroom
    obtain ⟨hcommitted', hmembers'⟩ := ih hrest
    exact ⟨hcommitted'.trans hcommitted, hmembers.trans hmembers'⟩

variable {subscription : AgentSubscription}

theorem autoJoinSubscriptionRooms_ok
    (h : exec (autoJoinSubscriptionRooms subscription) σ = (.ok u, τ)) : OnlyMembers σ.view τ.view := by
  rw [autoJoinSubscriptionRooms, exec_view_bind] at h
  exact (joinRooms_ok h).2

theorem revokeSubscriptionRoomAccess_ok (h : exec (revokeSubscriptionRoomAccess subscription) σ = (.ok u, τ)) :
    τ.committed = σ.committed ∧ OnlyMembers σ.view τ.view := by
  rw [revokeSubscriptionRoomAccess, exec_view_bind, exec_modifyView_bind, flushStore, exec_flush_ok] at h
  obtain ⟨-, rfl⟩ := h
  exact ⟨rfl, _, rfl⟩

theorem revokeSubscriptionRoomAccessForSubscription_ok
    (h : exec (revokeSubscriptionRoomAccessForSubscription subscription) σ = (.ok u, τ)) :
    τ.committed = σ.committed ∧ OnlyMembers σ.view τ.view := by
  rw [revokeSubscriptionRoomAccessForSubscription] at h
  split at h
  · obtain ⟨-, rfl⟩ := exec_pure_ok.mp h
    exact ⟨rfl, .refl _⟩
  · rw [exec_modifyView_bind, flushStore, exec_flush_ok] at h
    obtain ⟨-, rfl⟩ := h
    exact ⟨rfl, _, rfl⟩

variable {product : SubscriptionProduct}

theorem createSubscriptionProduct_ok {form : ProductForm} {productId : ProductId}
    (h : exec (createSubscriptionProduct form productId) σ = (.ok product, τ)) :
    τ.view = σ.view.addProduct product := by
  simp only [createSubscriptionProduct, exec_require_bind_ok, exec_modifyView_bind, exec_attempt_bind, flushStore,
    exec_flush] at h
  obtain ⟨-, -, -, hinsert⟩ := h
  generalize hadded : Store.addProduct σ.view _ = added at hinsert
  cases hflush : added.constraints with
  | ok u =>
    rw [hflush] at hinsert
    obtain ⟨rfl, rfl⟩ := exec_pure_ok.mp hinsert
    exact hadded.symm
  | error e =>
    rw [hflush] at hinsert
    rcases constraints_error hflush with rfl | rfl <;> cases hinsert

theorem archiveSubscriptionProduct_ok {productId : ProductId} {ownerId : String} {ownerType : ParticipantType}
    (h : exec (archiveSubscriptionProduct productId ownerId ownerType) σ = (.ok product, τ)) :
    τ.view = σ.view ∨ τ.view = σ.view.archiveProduct productId := by
  rw [archiveSubscriptionProduct, exec_view_bind] at h
  cases hfind : σ.view.findProduct productId with
  | none => simp [hfind] at h
  | some row =>
    simp only [hfind, exec_require_bind_ok] at h
    obtain ⟨-, harchive⟩ := h
    split at harchive
    · obtain ⟨-, rfl⟩ := exec_pure_ok.mp harchive
      exact .inl rfl
    · simp only [exec_modifyView_bind, flushStore, exec_flush_bind_ok] at harchive
      obtain ⟨-, hpure⟩ := harchive
      obtain ⟨-, rfl⟩ := exec_pure_ok.mp hpure
      exact .inr rfl

theorem cancelSubscription_ok {subscriptionId : SubscriptionId} {currentAgent : AgentId} {now : DateTime}
    (h : exec (cancelSubscription subscriptionId currentAgent now) σ = (.ok subscription, τ)) :
    τ.view = σ.view ∨ ∃ row ∈ σ.view.subscriptions, row.status ≠ .cancelled ∧
      OnlyMembers (σ.view.putSubscription (row.cancel now)) τ.view := by
  rw [cancelSubscription, exec_view_bind] at h
  cases hfind : σ.view.findSubscription subscriptionId with
  | none => simp [hfind] at h
  | some row =>
    simp only [hfind, exec_require_bind_ok] at h
    obtain ⟨-, hcancel⟩ := h
    split at hcancel
    · obtain ⟨-, rfl⟩ := exec_pure_ok.mp hcancel
      exact .inl rfl
    · rename_i hopen
      rw [exec_modifyView_bind] at hcancel
      obtain ⟨u, m, hrevoke, hflush⟩ := exec_bind_ok.mp hcancel
      simp only [flushStore, exec_flush_bind_ok] at hflush
      obtain ⟨-, hpure⟩ := hflush
      obtain ⟨-, rfl⟩ := exec_pure_ok.mp hpure
      exact .inr ⟨row, List.mem_of_find?_eq_some hfind, hopen, (revokeSubscriptionRoomAccess_ok hrevoke).2⟩

theorem assertRoomMatches_ok {r : SubscribeRequest}
    (h : exec (assertRoomMatches r) σ = (.ok u, τ)) :
    τ = σ ∧ ∀ roomId ∈ r.roomId, (σ.view.findRoom roomId).bind (·.requiredSubscriptionProductId) = some r.productId := by
  rw [assertRoomMatches] at h
  cases hroom : r.roomId with
  | none =>
    rw [hroom] at h
    obtain ⟨-, rfl⟩ := exec_pure_ok.mp h
    exact ⟨rfl, by simp⟩
  | some roomId =>
    simp only [hroom, exec_view_bind] at h
    cases hfind : σ.view.findRoom roomId with
    | none => simp [hfind] at h
    | some room =>
      rw [hfind] at h
      obtain ⟨hrequired, rfl⟩ := exec_require_ok.mp h
      refine ⟨rfl, ?_⟩
      rintro _ ⟨⟩
      rw [hfind]
      exact hrequired

/-- A first subscription that came second to one committed meanwhile returns that one; otherwise it is opened. -/
theorem openSubscription_ok {r : SubscribeRequest} {now : DateTime} {d : Draw}
    (h : exec (openSubscription product r now d) σ = (.ok subscription, τ)) :
    ∃ periodEnd tx m, advancePeriod now product.billingInterval = .ok periodEnd ∧
      exec (createTransfer (firstTransfer product r d.subscriptionId) d.wallet) σ = (.ok tx, m) ∧
      (τ.view = m.committed ∨
        let opened := (m.view.addSubscription (newSubscription product r now periodEnd d.subscriptionId tx.txId)).recordCharge
          (firstCharge product r now periodEnd d.subscriptionId tx.txId)
        opened.Integral ∧ OnlyMembers opened τ.view) := by
  rw [openSubscription] at h
  obtain ⟨periodEnd, hadvance, hcharge⟩ := exec_fromExcept_bind_ok.mp h
  obtain ⟨tx, m, htransfer, hinsert⟩ := exec_bind_ok.mp hcharge
  refine ⟨periodEnd, tx, m, hadvance, htransfer, ?_⟩
  simp only [exec_modifyView_bind, exec_attempt_bind, flushStore, exec_flush] at hinsert ⊢
  generalize Store.recordCharge (Store.addSubscription _ _) _ = recorded at hinsert ⊢
  cases hflush : recorded.constraints with
  | ok u =>
    simp only [hflush] at hinsert
    obtain ⟨u, m', hjoin, hpure⟩ := exec_bind_ok.mp hinsert
    obtain ⟨-, rfl⟩ := exec_pure_ok.mp hpure
    exact .inr ⟨Store.integral_of_constraints hflush, autoJoinSubscriptionRooms_ok hjoin⟩
  | error e =>
    left
    rcases constraints_error hflush with rfl | rfl
    · simp [hflush] at hinsert
    · simp only [hflush, exec_rollback_bind, exec_view_bind] at hinsert
      split at hinsert
      · obtain ⟨-, rfl⟩ := exec_pure_ok.mp hinsert
        rfl
      · cases hinsert

theorem reactivateSubscription_ok {current subscription : AgentSubscription}
    {r : SubscribeRequest} {now : DateTime} {d : Wallet.Draw}
    (h : exec (reactivateSubscription current product r now d) σ = (.ok subscription, τ)) :
    ∃ periodEnd tx m, advancePeriod now product.billingInterval = .ok periodEnd ∧
      exec (createTransfer (reactivationTransfer current product r now) d) σ = (.ok tx, m) ∧
      OnlyMembers ((m.view.putSubscription (current.reactivate r.roomId now periodEnd tx.txId)).recordCharge
        (reactivationCharge current product now periodEnd tx.txId)) τ.view := by
  rw [reactivateSubscription] at h
  obtain ⟨periodEnd, hadvance, hcharge⟩ := exec_fromExcept_bind_ok.mp h
  obtain ⟨tx, m, htransfer, hwrite⟩ := exec_bind_ok.mp hcharge
  simp only [exec_modifyView_bind, flushStore, exec_flush_bind_ok] at hwrite
  obtain ⟨-, hjoins⟩ := hwrite
  obtain ⟨u, m', hjoin, hpure⟩ := exec_bind_ok.mp hjoins
  obtain ⟨-, rfl⟩ := exec_pure_ok.mp hpure
  exact ⟨periodEnd, tx, m, hadvance, htransfer, autoJoinSubscriptionRooms_ok hjoin⟩

theorem moveToRoom_ok {current subscription : AgentSubscription} {roomId : Option RoomId}
    (h : exec (moveToRoom current roomId) σ = (.ok subscription, τ)) :
    τ.view = σ.view ∨ τ.view = σ.view.putSubscription { current with roomId } := by
  rw [moveToRoom] at h
  split at h
  · simp only [exec_modifyView_bind, flushStore, exec_flush_bind_ok] at h
    obtain ⟨-, hpure⟩ := h
    obtain ⟨-, rfl⟩ := exec_pure_ok.mp hpure
    exact .inr rfl
  · obtain ⟨-, rfl⟩ := exec_pure_ok.mp h
    exact .inl rfl

theorem createSubscription_ok {r : SubscribeRequest} {now : DateTime} {d : Draw}
    (h : exec (createSubscription r now d) σ = (.ok subscription, τ)) :
    ∃ product ∈ σ.view.findProduct r.productId, Subscribable σ.view product r ∧
      (σ.view.findSubscriber (r.productId, r.subscriberAgentId) = none ∧
          exec (openSubscription product r now d) σ = (.ok subscription, τ) ∨
        ∃ current ∈ σ.view.findSubscriber (r.productId, r.subscriberAgentId),
          current.status = .cancelled ∧
              exec (reactivateSubscription current product r now d.wallet) σ = (.ok subscription, τ) ∨
            current.status ≠ .cancelled ∧ exec (moveToRoom current r.roomId) σ = (.ok subscription, τ)) := by
  rw [createSubscription, exec_view_bind] at h
  cases hfind : σ.view.findProduct r.productId with
  | none => simp [hfind] at h
  | some product =>
    simp only [hfind, exec_require_bind_ok] at h
    obtain ⟨hactive, howner, hprovider, h⟩ := h
    obtain ⟨u, m, hroom, hsubscribe⟩ := exec_bind_ok.mp h
    obtain ⟨rfl, hmatches⟩ := assertRoomMatches_ok hroom
    rw [exec_view_bind] at hsubscribe
    refine ⟨product, rfl, ⟨hactive, howner, hprovider, hmatches⟩, ?_⟩
    cases hcurrent : m.view.findSubscriber (r.productId, r.subscriberAgentId) with
    | none =>
      simp only [hcurrent] at hsubscribe
      exact .inl ⟨rfl, hsubscribe⟩
    | some current =>
      simp only [hcurrent] at hsubscribe
      refine .inr ⟨current, rfl, ?_⟩
      split at hsubscribe
      · exact .inl ⟨‹_›, hsubscribe⟩
      · exact .inr ⟨‹_›, hsubscribe⟩

/-- The attempt of a cycle was added, or stands in the place of the one that failed. -/
structure Attempted (r : AgentSubscription) (row : SubscriptionChargeAttempt) (s v : Store) : Prop where
  cycle : row.cycle = (r.subscriptionId, billingCycleKey r)
  started : v = s.addAttempt row ∨ (∃ a ∈ s.attempts, a.cycle = row.cycle) ∧ v = s.putAttempt row

inductive Bills (r : AgentSubscription) (now : DateTime) (σ τ : Session Store) : Prop
  | skipped (hsame : τ = σ)
  | cancelled (hopen : r.status ≠ .cancelled) (hcommitted : τ.committed = σ.committed) (hok : τ.view.Integral)
      (hmembers : OnlyMembers (σ.view.putSubscription (r.cancel now)) τ.view)
  | failed (row : SubscriptionChargeAttempt) (started : Store) (w : Wallet.Store) (retryAt : DateTime)
      (reason : Wallet.Error) (hchargeable : Chargeable σ.view r now) (hattempted : Attempted r row σ.view started)
      (hrows : w.transactions = started.wallet.transactions) (hcommitted : τ.committed = σ.committed)
      (hok : τ.view.Integral)
      (hmembers : OnlyMembers (((started.withWallet w).putAttempt
        { row with status := .failed, failureReason := some reason }).putSubscription (r.fail now retryAt)) τ.view)
  | charged (row : SubscriptionChargeAttempt) (started : Store) (d : Wallet.Draw) (tx : WalletTransaction)
      (m : Session Store) (periodEnd : DateTime) (hchargeable : Chargeable σ.view r now)
      (hattempted : Attempted r row σ.view started)
      (hadvance : advancePeriod r.currentPeriodEnd r.billingInterval = .ok periodEnd)
      (htransfer : exec (createTransfer (billingTransfer r) d) { σ with view := started } = (.ok tx, m))
      (hcommitted : τ.committed = m.committed) (hok : τ.view.Integral)
      (hview : τ.view = ((m.view.putAttempt
        { row with status := .succeeded, txId := some tx.txId, failureReason := none }).putSubscription
          (r.advance now periodEnd tx.txId)).recordCharge (billingCharge r periodEnd tx.txId))

section Bill

variable {r : AgentSubscription} {now : DateTime} {d : BillingDraw}

variable {row : SubscriptionChargeAttempt}

theorem ensureChargeAttempt_ok {attemptId : String}
    (h : exec (ensureChargeAttempt r now attemptId) σ = (.ok row, τ)) :
    τ.committed = σ.committed ∧ Attempted r row σ.view τ.view := by
  rw [ensureChargeAttempt, exec_view_bind] at h
  cases hfind : σ.view.findAttempt (r.subscriptionId, billingCycleKey r) with
  | none =>
    simp only [hfind, exec_modifyView_bind, flushStore, exec_flush_bind_ok] at h
    obtain ⟨-, hpure⟩ := h
    obtain ⟨rfl, rfl⟩ := exec_pure_ok.mp hpure
    exact ⟨rfl, rfl, .inl rfl⟩
  | some found =>
    have hcycle : found.cycle = (r.subscriptionId, billingCycleKey r) := by simpa using List.find?_some hfind
    simp only [hfind, exec_modifyView_bind, flushStore, exec_flush_bind_ok] at h
    obtain ⟨-, hpure⟩ := h
    obtain ⟨rfl, rfl⟩ := exec_pure_ok.mp hpure
    exact ⟨rfl, hcycle, .inr ⟨⟨found, List.mem_of_find?_eq_some hfind, rfl⟩, rfl⟩⟩

variable {outcome : Outcome}

theorem recordFailure_ok {reason : Wallet.Error}
    (h : exec (recordFailure r row now reason) σ = (.ok outcome, τ)) :
    ∃ retryAt, τ.committed = σ.committed ∧ τ.view.Integral ∧ OnlyMembers ((σ.view.putAttempt
      { row with status := .failed, failureReason := some reason }).putSubscription (r.fail now retryAt)) τ.view := by
  rw [recordFailure] at h
  cases hretry : now.addDays 1 with
  | none => simp [hretry] at h
  | some retryAt =>
    simp only [hretry, exec_modifyView_bind] at h
    refine ⟨retryAt, ?_⟩
    split at h
    · obtain ⟨u, m, hrevoke, hflush⟩ := exec_bind_ok.mp h
      simp only [flushStore, exec_flush_bind_ok] at hflush
      obtain ⟨hok, hpure⟩ := hflush
      obtain ⟨-, rfl⟩ := exec_pure_ok.mp hpure
      obtain ⟨hcommitted, hmembers⟩ := revokeSubscriptionRoomAccess_ok hrevoke
      exact ⟨hcommitted, Store.integral_of_constraints hok, hmembers⟩
    · simp only [flushStore, exec_flush_bind_ok] at h
      obtain ⟨hok, hpure⟩ := h
      obtain ⟨-, rfl⟩ := exec_pure_ok.mp hpure
      exact ⟨rfl, Store.integral_of_constraints hok, .refl _⟩

theorem recordSuccess_ok {txId : TxId}
    (h : exec (recordSuccess r row now txId) σ = (.ok outcome, τ)) :
    ∃ periodEnd, advancePeriod r.currentPeriodEnd r.billingInterval = .ok periodEnd ∧
      τ.committed = σ.committed ∧ τ.view.Integral ∧ τ.view = ((σ.view.putAttempt
        { row with status := .succeeded, txId := some txId, failureReason := none }).putSubscription
          (r.advance now periodEnd txId)).recordCharge (billingCharge r periodEnd txId) := by
  rw [recordSuccess] at h
  obtain ⟨periodEnd, hadvance, hrecord⟩ := exec_fromExcept_bind_ok.mp h
  simp only [exec_modifyView_bind, flushStore, exec_flush_bind_ok] at hrecord
  obtain ⟨hok, hpure⟩ := hrecord
  obtain ⟨-, rfl⟩ := exec_pure_ok.mp hpure
  exact ⟨periodEnd, hadvance, rfl, Store.integral_of_constraints hok, rfl⟩

theorem chargeCycle_ok (hchargeable : Chargeable σ.view r now)
    (h : exec (chargeCycle r now d) σ = (.ok outcome, τ)) : Bills r now σ τ := by
  rw [chargeCycle] at h
  obtain ⟨row, ⟨committed, started⟩, hensure, hcharge⟩ := exec_bind_ok.mp h
  obtain ⟨rfl, hattempted⟩ := ensureChargeAttempt_ok hensure
  rw [exec_attempt_bind] at hcharge
  rcases htransfer : exec (createTransfer (billingTransfer r) d.wallet) ⟨σ.committed, started⟩ with ⟨e | tx, m⟩
  · simp only [htransfer] at hcharge
    cases e with
    | wallet e =>
      simp only at hcharge
      split at hcharge
      · cases hcharge
      · rename_i hconflict
        split at hcharge
        · rename_i hvalue
          obtain ⟨w, rfl, hrows⟩ := createTransfer_valueError htransfer hvalue hconflict
          obtain ⟨retryAt, hcommitted, hok, hmembers⟩ := recordFailure_ok hcharge
          exact .failed row started w retryAt e hchargeable hattempted hrows hcommitted hok hmembers
        · cases hcharge
    | _ => cases hcharge
  · simp only [htransfer] at hcharge
    obtain ⟨periodEnd, hadvance, hcommitted, hok, hview⟩ := recordSuccess_ok hcharge
    exact .charged row started d.wallet tx m periodEnd hchargeable hattempted hadvance htransfer hcommitted hok hview

theorem chargeSubscription_ok (h : exec (chargeSubscription r now d) σ = (.ok outcome, τ)) :
    Bills r now σ τ := by
  rw [chargeSubscription] at h
  split at h
  · exact .skipped (exec_pure_ok.mp h).2.symm
  rename_i hdue
  rw [not_or, not_not] at hdue
  rw [exec_view_bind] at h
  split at h
  · rw [exec_modifyView_bind] at h
    obtain ⟨u, m, hrevoke, hflush⟩ := exec_bind_ok.mp h
    simp only [flushStore, exec_flush_bind_ok] at hflush
    obtain ⟨hok, hpure⟩ := hflush
    obtain ⟨-, rfl⟩ := exec_pure_ok.mp hpure
    obtain ⟨hcommitted, hmembers⟩ := revokeSubscriptionRoomAccessForSubscription_ok hrevoke
    exact .cancelled hdue.1 hcommitted (Store.integral_of_constraints hok) hmembers
  rename_i hplan
  split at h
  · exact .skipped (exec_pure_ok.mp h).2.symm
  rename_i hcycle
  exact chargeCycle_ok ⟨hdue, hplan, hcycle⟩ h

theorem billSubscription_ok {subscriptionId : SubscriptionId} {outcome : Option Outcome}
    (h : exec (billSubscription subscriptionId now d) σ = (.ok outcome, τ)) :
    τ = σ ∨ ∃ r ∈ σ.view.findSubscription subscriptionId, Bills r now σ τ := by
  rw [billSubscription, exec_view_bind] at h
  cases hfind : σ.view.findSubscription subscriptionId with
  | none =>
    rw [hfind] at h
    exact .inl (exec_pure_ok.mp h).2.symm
  | some r =>
    simp only [hfind] at h
    obtain ⟨result, m, hcharge, hpure⟩ := exec_bind_ok.mp h
    obtain ⟨-, rfl⟩ := exec_pure_ok.mp hpure
    exact .inr ⟨r, rfl, chargeSubscription_ok hcharge⟩

/-- A savepoint leaves what the call left, what was there before it, or, after a rollback, what is committed. -/
theorem beginNested_cases {α : Type} (x : Tx α) (σ : Session Store) :
    (exec (beginNested x) σ).2 = σ ∨ (exec (beginNested x) σ).2 = ⟨σ.committed, σ.committed⟩ ∨
      ∃ a, exec x σ = (.ok a, (exec (beginNested x) σ).2) := by
  rw [show exec (beginNested x) σ = beginNested x σ from rfl, beginNested]
  rcases exec x σ with ⟨e | a, m⟩
  · cases e
    case missingGreenlet => exact .inr (.inl rfl)
    all_goals exact .inl rfl
  · exact .inr (.inr ⟨a, rfl⟩)

end Bill

theorem nodup_dueSubscriptions {s : Store} (h : s.Integral) (now : DateTime) (limit : ℕ) :
    (dueSubscriptions s now limit).Nodup := by
  rw [dueSubscriptions, List.map_take]
  apply (List.take_sublist _ _).nodup
  apply (List.Perm.map _ (List.perm_insertionSort _ _)).nodup_iff.mpr
  exact h.subscription_ids.sublist (List.filter_sublist.map _)

end BotCord.Subscriptions
