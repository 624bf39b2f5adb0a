import BotCord.Wallet.Specs

/-!
# The wallet service refines the ledger

Each operation of the service that commits is a sequence of moves of the account machine: grants, topups and transfers post, a withdrawal request holds, rejecting or cancelling releases, completing settles, and the rest moves nothing. The machine's soundness then holds of every store the service reaches.
-/

namespace BotCord.Wallet

open Transaction Ledger

/-- The book of one store becomes the book of the other by moves of the account machine. -/
def Moves (s t : Store) : Prop := ∃ moves, (books WalletKey).run s.book moves = some t.book

variable {s t u v : Store} {ownerId : OwnerId}

theorem Moves.of_book (h : t.book = s.book) : Moves s t := ⟨[], by rw [System.run_nil, h]⟩

theorem Moves.trans {s t u : Store} : Moves s t → Moves t u → Moves s u := by
  rintro ⟨front, hfront⟩ ⟨back, hback⟩
  exact ⟨front ++ back, by rw [System.run_append, hfront, Option.bind_some, hback]⟩

theorem Moves.single (m : Move WalletKey) (h : (books WalletKey).step s.book m = some t.book) :
    Moves s t :=
  ⟨[m], by rw [System.run_cons, h, Option.bind_some, System.run_nil]⟩

theorem Moves.post (key : WalletKey) (amount : ℤ) (hcovered : 0 ≤ (s.book key).available + amount)
    (ht : t.book = s.book.set key ((s.book key).post amount)) : Moves s t :=
  .single (.post key amount) (by rw [ht]; exact if_pos hcovered)

theorem Moves.hold (key : WalletKey) (amount : ℤ)
    (hcovered : 0 ≤ amount ∧ amount ≤ (s.book key).available)
    (ht : t.book = s.book.set key ((s.book key).hold amount)) : Moves s t :=
  .single (.hold key amount) (by rw [ht]; exact if_pos hcovered)

variable {key : WalletKey} {amount : ℤ}

theorem Moves.release (hheld : 0 ≤ amount ∧ amount ≤ (s.book key).held)
    (ht : t.book = s.book.set key ((s.book key).release amount)) : Moves s t :=
  .single (.release key amount) (by rw [ht]; exact if_pos hheld)

theorem Moves.settle (hheld : 0 ≤ amount ∧ amount ≤ (s.book key).held)
    (ht : t.book = s.book.set key ((s.book key).settle amount)) : Moves s t :=
  .single (.settle key amount) (by rw [ht]; exact if_pos hheld)

theorem signed_credit {entryId txId : String} {assetCode : AssetCode} {amount after : ℤ} :
    (⟨entryId, txId, ownerId, assetCode, .credit, amount, after⟩ : WalletEntry).signed = amount := rfl

theorem signed_debit {entryId txId : String} {assetCode : AssetCode} {amount after : ℤ} :
    (⟨entryId, txId, ownerId, assetCode, .debit, amount, after⟩ : WalletEntry).signed = -amount := rfl

variable {w : WalletAccount}

theorem book_putWallet_addEntry {available locked : ℤ}
    {e : WalletEntry} (hw : v.findWallet key = some w) (hu : u.book = (v.putWallet (w.adjust available locked)).book)
    (he : e.key = key) :
    (u.addEntry e).book = v.book.set key
      ⟨(v.book key).available + available, (v.book key).locked + locked, (v.book key).held,
        (v.book key).history ++ [e.posting]⟩ := by
  have hkey : (w.adjust available locked).key = key := (WalletAccount.key_adjust ..).trans (Store.key_of_findWallet hw)
  have havailable : (v.book key).available = w.availableBalanceMinor := Store.available_of_findWallet hw
  have hlocked : (v.book key).locked = w.lockedBalanceMinor := Store.locked_of_findWallet hw
  rw [Store.book_addEntry, he, hu, Store.book_putWallet (by rw [hkey]; exact hw), hkey, havailable, hlocked]
  simp [WalletAccount.adjust]

theorem available_nonneg_of_findWallet {key : WalletKey} {w : WalletAccount} (hs : (s.book key).Sound)
    (hbook : v.book = s.book) (hw : v.findWallet key = some w) : 0 ≤ w.availableBalanceMinor := by
  have havailable : (v.book key).available = w.availableBalanceMinor := Store.available_of_findWallet hw
  rw [← havailable, hbook]
  exact hs.available_nonneg

theorem Moves.entry {e : WalletEntry}
    (hw : v.findWallet key = some w) (hu : u.book = (v.putWallet (w.adjust e.signed 0)).book) (he : e.key = key)
    (hafter : e.balanceAfterMinor = (w.adjust e.signed 0).availableBalanceMinor + (w.adjust e.signed 0).lockedBalanceMinor)
    (hcovered : 0 ≤ w.availableBalanceMinor + e.signed) : Moves v (u.addEntry e) := by
  have havailable : (v.book key).available = w.availableBalanceMinor := Store.available_of_findWallet hw
  have hlocked : (v.book key).locked = w.lockedBalanceMinor := Store.locked_of_findWallet hw
  apply Moves.post key e.signed
  · omega
  · rw [book_putWallet_addEntry hw hu he, Account.post, WalletEntry.posting, hafter, havailable, hlocked]
    simp [WalletAccount.adjust]

theorem Moves.transfer {v : Store} (d : Draw) (r : TransferRequest) {sender receiver : WalletAccount}
    (hsender : v.findWallet (r.fromOwnerId, r.assetCode) = some sender)
    (hreceiver : v.findWallet (r.toOwnerId, r.assetCode) = some receiver)
    (hkeys : (r.fromOwnerId, r.assetCode) ≠ (r.toOwnerId, r.assetCode))
    (hfunds : 0 ≤ r.amountMinor ∧ r.amountMinor ≤ sender.availableBalanceMinor)
    (havailable : 0 ≤ receiver.availableBalanceMinor) : Moves v (transferred v d r sender receiver) := by
  let debit : WalletEntry :=
    ⟨d.firstEntryId, d.txId, r.fromOwnerId, r.assetCode, .debit, r.amountMinor,
      (sender.adjust (-r.amountMinor) 0).availableBalanceMinor + (sender.adjust (-r.amountMinor) 0).lockedBalanceMinor⟩
  have hdebit : Moves v ((v.putWallet (sender.adjust (-r.amountMinor) 0)).addEntry debit) := by
    refine .entry hsender rfl rfl rfl ?_
    rw [signed_debit]
    omega
  have hfound : ((v.putWallet (sender.adjust (-r.amountMinor) 0)).addEntry debit).findWallet (r.toOwnerId, r.assetCode) =
      some receiver := by
    refine (Store.findWallet_putWallet_of_ne ?_).trans hreceiver
    rw [WalletAccount.key_adjust, Store.key_of_findWallet hsender]
    exact hkeys.symm
  refine hdebit.trans (.entry hfound rfl rfl rfl ?_)
  rw [signed_credit]
  omega

theorem book_hold {x : WithdrawalRequest}
    (hw : v.findWallet key = some w) (hu : u.book = (v.putWallet (w.adjust (-amount) amount)).book) (hx : x.key = key)
    (hopen : x.Open) (htotal : x.total = amount) :
    (u.addWithdrawal x).book = v.book.set key ((v.book key).hold amount) := by
  have hkey : (w.adjust (-amount) amount).key = key :=
    (WalletAccount.key_adjust ..).trans (Store.key_of_findWallet hw)
  have havailable : (v.book key).available = w.availableBalanceMinor := Store.available_of_findWallet hw
  have hlocked : (v.book key).locked = w.lockedBalanceMinor := Store.locked_of_findWallet hw
  rw [Store.book_addWithdrawal u hopen, hx, hu, Store.book_putWallet (by rw [hkey]; exact hw), hkey, htotal]
  simp [Account.hold, WalletAccount.adjust, havailable, hlocked, sub_eq_add_neg]

theorem book_close {v : Store} {wallet : WalletAccount} {w : WithdrawalRequest} (available : ℤ)
    (status : WithdrawalStatus) (hw : v.findWallet w.key = some wallet)
    (hids : (v.withdrawals.map WithdrawalRequest.withdrawalId).Nodup) (hmem : w ∈ v.withdrawals) (hopen : w.Open)
    (hclosed : status ≠ .pending ∧ status ≠ .approved) :
    ((v.putWallet (wallet.adjust available (-w.total))).setWithdrawalStatus w.withdrawalId status).book =
      v.book.set w.key
        { v.book w.key with
          available := (v.book w.key).available + available
          locked := (v.book w.key).locked - w.total
          held := (v.book w.key).held - w.total } := by
  have hkey : (wallet.adjust available (-w.total)).key = w.key :=
    (WalletAccount.key_adjust ..).trans (Store.key_of_findWallet hw)
  have havailable : (v.book w.key).available = wallet.availableBalanceMinor := Store.available_of_findWallet hw
  have hlocked : (v.book w.key).locked = wallet.lockedBalanceMinor := Store.locked_of_findWallet hw
  have hnot : ¬ ({ w with status } : WithdrawalRequest).Open := fun h => h.elim hclosed.1 hclosed.2
  rw [Store.book_setWithdrawalStatus (s := v.putWallet _) hids hmem, if_pos hopen, if_neg hnot,
    Store.book_putWallet (by rw [hkey]; exact hw), hkey]
  simp [WalletAccount.adjust, havailable, hlocked, sub_eq_add_neg]

structure Effect (s t : Store) : Prop where
  moves : Moves s t
  positive : s.RequestsPositive → t.RequestsPositive

theorem Effect.refl (s : Store) : Effect s s := ⟨.of_book rfl, id⟩

theorem Effect.of_requests (hmoves : Moves s t) (htopups : t.topups = s.topups)
    (hwithdrawals : t.withdrawals = s.withdrawals) : Effect s t :=
  ⟨hmoves, fun hpos => ⟨fun x hx => hpos.topups x (htopups ▸ hx), fun x hx => hpos.withdrawals x (hwithdrawals ▸ hx)⟩⟩

theorem positive_setTopupStatus {s : Store} (h : ∀ t ∈ s.topups, 0 < t.amountMinor) (topupId : String)
    (status : TopupStatus) : ∀ t ∈ (s.setTopupStatus topupId status).topups, 0 < t.amountMinor := by
  intro t ht
  obtain ⟨old, hold, rfl⟩ := Table.mem_update.mp ht
  split <;> exact h old hold

theorem positive_setWithdrawalStatus {s : Store} (h : ∀ w ∈ s.withdrawals, 0 < w.amountMinor ∧ 0 ≤ w.feeMinor)
    (withdrawalId : String) (status : WithdrawalStatus) :
    ∀ w ∈ (s.setWithdrawalStatus withdrawalId status).withdrawals, 0 < w.amountMinor ∧ 0 ≤ w.feeMinor := by
  intro w hw
  obtain ⟨old, hold, rfl⟩ := Table.mem_update.mp hw
  split <;> exact h old hold

section Operations

variable {τ : Session Store} {d : Draw}

theorem createGrant_effect {r : GrantRequest} {tx : WalletTransaction} (hs : (s.book (r.ownerId, r.assetCode)).Sound)
    (h : exec (createGrant r d) ⟨s, s⟩ = (.ok tx, τ)) : Effect s τ.view := by
  obtain ⟨existing, hexisting, h⟩ := exec_bind_read existingTransaction_ok h
  cases existing with
  | some tx =>
    obtain ⟨rfl, rfl⟩ := exec_pure_ok.mp h
    exact .refl s
  | none =>
    simp only [creditGrant, exec_require_bind_ok] at h
    obtain ⟨hamount, h⟩ := h
    obtain ⟨u, m, howner, h⟩ := exec_bind_ok.mp h
    obtain ⟨-, rfl⟩ := assertOwnerExists_ok.mp howner
    obtain ⟨w, m, hlock, h⟩ := exec_bind_ok.mp h
    obtain ⟨v, rfl, hv, hw⟩ := lockWallet_ok hlock
    obtain ⟨inserted, m, hinsert, h⟩ := exec_bind_ok.mp h
    rcases insertTransaction_ok hinsert with ⟨rfl, rfl⟩ | ⟨rfl, rfl⟩
    · simp only [exec_modifyView_bind, writeEntry] at h
      obtain ⟨rfl, rfl⟩ := exec_pure_ok.mp h
      have havailable := available_nonneg_of_findWallet hs hv.book hw
      refine .of_requests ((Moves.of_book hv.book).trans (.entry hw rfl rfl rfl ?_)) hv.topups hv.withdrawals
      rw [signed_credit]
      omega
    · obtain rfl := reloadExisting_ok h
      exact .refl s

theorem createTransfer_effect {r : TransferRequest} {tx : WalletTransaction} (hs : s.book.Sound)
    (h : exec (createTransfer r d) ⟨s, s⟩ = (.ok tx, τ)) : Effect s τ.view := by
  obtain ⟨existing, hexisting, h⟩ := exec_bind_read existingTransaction_ok h
  cases existing with
  | some tx =>
    obtain ⟨rfl, rfl⟩ := exec_pure_ok.mp h
    exact .refl s
  | none =>
    obtain ⟨u, m, hvalid, h⟩ := exec_bind_ok.mp h
    obtain ⟨⟨hself, hamount, -, -⟩, rfl⟩ := validateTransfer_ok.mp hvalid
    obtain ⟨⟨sender, receiver⟩, m, hlock, h⟩ := exec_bind_ok.mp h
    obtain ⟨v, rfl, hv, hsender, hreceiver⟩ := lockBoth_ok hlock
    simp only [exec_require_bind_ok] at h
    obtain ⟨hfunds, h⟩ := h
    obtain ⟨inserted, m, hinsert, h⟩ := exec_bind_ok.mp h
    rcases insertTransaction_ok hinsert with ⟨rfl, rfl⟩ | ⟨rfl, rfl⟩
    · simp only [exec_modifyView_bind, flushStore, exec_flush_bind_ok] at h
      obtain ⟨-, h⟩ := h
      obtain ⟨rfl, rfl⟩ := exec_pure_ok.mp h
      have havailable := available_nonneg_of_findWallet (hs _) hv.book hreceiver
      have hkeys : (r.fromOwnerId, r.assetCode) ≠ (r.toOwnerId, r.assetCode) :=
        fun heq => hself (Prod.mk.inj heq).1
      have hmoves : Moves (v.addTransaction (r.row d)) _ :=
        .transfer d r hsender hreceiver hkeys ⟨by omega, hfunds⟩ havailable
      exact .of_requests ((Moves.of_book hv.book).trans hmoves) hv.topups hv.withdrawals
    · obtain rfl := reloadExisting_ok h
      exact .refl s

theorem openTopup_effect {r : TopupForm} {x : TopupRequest × WalletTransaction} (hamount : 0 < r.amountMinor)
    (h : exec (openTopup r d) ⟨s, s⟩ = (.ok x, τ)) : Effect s τ.view := by
  obtain ⟨inserted, m, hinsert, h⟩ := exec_bind_ok.mp h
  rcases insertTransaction_ok hinsert with ⟨rfl, rfl⟩ | ⟨rfl, rfl⟩
  · simp only [exec_modifyView_bind, flushStore, exec_flush_bind_ok] at h
    obtain ⟨-, h⟩ := h
    obtain ⟨rfl, rfl⟩ := exec_pure_ok.mp h
    refine ⟨.of_book rfl, fun hpos => ⟨fun t ht => ?_, hpos.withdrawals⟩⟩
    rcases List.mem_append.mp ht with hold | hnew
    · exact hpos.topups t hold
    · rw [List.mem_singleton.mp hnew]
      exact hamount
  · obtain ⟨tx, m, hreload, h⟩ := exec_bind_ok.mp h
    obtain rfl := reloadExisting_ok hreload
    obtain ⟨topup, htopup, h⟩ := exec_bind_read topupOf_ok h
    cases topup with
    | none => simp at h
    | some topup =>
      obtain ⟨rfl, rfl⟩ := exec_pure_ok.mp h
      exact .refl s

theorem createTopupRequest_effect {r : TopupForm} {x : TopupRequest × WalletTransaction}
    (h : exec (createTopupRequest r d) ⟨s, s⟩ = (.ok x, τ)) : Effect s τ.view := by
  simp only [createTopupRequest, exec_require_bind_ok] at h
  obtain ⟨hamount, h⟩ := h
  obtain ⟨u, m, howner, h⟩ := exec_bind_ok.mp h
  obtain ⟨-, rfl⟩ := assertOwnerExists_ok.mp howner
  obtain ⟨existing, hexisting, h⟩ := exec_bind_read existingTransaction_ok h
  cases existing with
  | none => exact openTopup_effect hamount h
  | some tx =>
    obtain ⟨topup, htopup, h⟩ := exec_bind_read topupOf_ok h
    cases topup with
    | none => exact openTopup_effect hamount h
    | some topup =>
      obtain ⟨rfl, rfl⟩ := exec_pure_ok.mp h
      exact .refl s

theorem completeTopupRequest_effect {topupId : String} {x : TopupRequest × WalletTransaction} (hs : s.book.Sound)
    (hpositive : s.RequestsPositive)
    (h : exec (completeTopupRequest topupId d) ⟨s, s⟩ = (.ok x, τ)) : Effect s τ.view := by
  obtain ⟨topup, m, htopup, h⟩ := exec_bind_ok.mp h
  obtain ⟨rfl, hmem, -, -⟩ := pendingTopup_ok htopup
  obtain ⟨w, m, hlock, h⟩ := exec_bind_ok.mp h
  obtain ⟨v, rfl, hv, hw⟩ := lockWallet_ok hlock
  simp only [exec_modifyView_bind] at h
  obtain ⟨tx, htx, h⟩ := exec_bind_read transactionOf_ok h
  simp only [exec_modifyView_bind, writeEntry, flushStore, exec_flush_bind_ok] at h
  obtain ⟨-, h⟩ := h
  obtain ⟨rfl, rfl⟩ := exec_pure_ok.mp h
  have havailable := available_nonneg_of_findWallet (hs _) hv.book hw
  have hamount := hpositive.topups topup hmem
  refine ⟨(Moves.of_book hv.book).trans (.entry hw rfl rfl rfl ?_), fun hpos => ?_⟩
  · rw [signed_credit]
    omega
  · exact ⟨positive_setTopupStatus (s := v.putWallet _) (hv.topups ▸ hpos.topups) topupId .completed,
      fun x hx => hpos.withdrawals x (hv.withdrawals ▸ hx)⟩

theorem failTopupRequest_effect {topupId : String} {topup : TopupRequest}
    (h : exec (failTopupRequest topupId) ⟨s, s⟩ = (.ok topup, τ)) : Effect s τ.view := by
  obtain ⟨topup, m, htopup, h⟩ := exec_bind_ok.mp h
  obtain ⟨rfl, -, -, -⟩ := pendingTopup_ok htopup
  simp only [exec_modifyView_bind] at h
  obtain ⟨tx, htx, h⟩ := exec_bind_read transactionOf_ok h
  simp only [exec_modifyView_bind, flushStore, exec_flush_bind_ok] at h
  obtain ⟨-, h⟩ := h
  obtain ⟨rfl, rfl⟩ := exec_pure_ok.mp h
  exact ⟨.of_book rfl, fun hpos => ⟨positive_setTopupStatus hpos.topups topupId .failed, hpos.withdrawals⟩⟩

variable {x : WithdrawalRequest × WalletTransaction}

theorem openWithdrawal_effect {r : WithdrawalForm}
    (hamount : 0 < r.amountMinor) (hfee : 0 ≤ r.feeMinor)
    (h : exec (openWithdrawal r d) ⟨s, s⟩ = (.ok x, τ)) : Effect s τ.view := by
  obtain ⟨w, m, hlock, h⟩ := exec_bind_ok.mp h
  obtain ⟨v, rfl, hv, hw⟩ := lockWallet_ok hlock
  simp only [exec_require_bind_ok, exec_modifyView_bind] at h
  obtain ⟨hfunds, h⟩ := h
  obtain ⟨inserted, m, hinsert, h⟩ := exec_bind_ok.mp h
  rcases insertTransaction_ok hinsert with ⟨rfl, rfl⟩ | ⟨rfl, rfl⟩
  · simp only [exec_modifyView_bind, flushStore, exec_flush_bind_ok] at h
    obtain ⟨-, h⟩ := h
    obtain ⟨rfl, rfl⟩ := exec_pure_ok.mp h
    have havailable : (v.book (r.ownerId, r.assetCode)).available = w.availableBalanceMinor :=
      Store.available_of_findWallet hw
    refine ⟨(Moves.of_book hv.book).trans (.hold (r.ownerId, r.assetCode) (r.amountMinor + r.feeMinor)
      ⟨by omega, by omega⟩ (book_hold hw rfl (by rfl) (.inl rfl) rfl)), fun hpos => ⟨hv.topups ▸ hpos.topups, ?_⟩⟩
    intro x hx
    rcases List.mem_append.mp hx with hold | hnew
    · exact hpos.withdrawals x (hv.withdrawals ▸ hold)
    · rw [List.mem_singleton.mp hnew]
      exact ⟨hamount, hfee⟩
  · obtain ⟨tx, m, hreload, h⟩ := exec_bind_ok.mp h
    obtain rfl := reloadExisting_ok hreload
    obtain ⟨withdrawal, hwithdrawal, h⟩ := exec_bind_read withdrawalOf_ok h
    cases withdrawal with
    | none => simp at h
    | some withdrawal =>
      obtain ⟨rfl, rfl⟩ := exec_pure_ok.mp h
      exact .refl s

theorem createWithdrawalRequest_effect {r : WithdrawalForm}
    (h : exec (createWithdrawalRequest r d) ⟨s, s⟩ = (.ok x, τ)) : Effect s τ.view := by
  simp only [createWithdrawalRequest, exec_require_bind_ok] at h
  obtain ⟨hamount, hfee, h⟩ := h
  obtain ⟨u, m, howner, h⟩ := exec_bind_ok.mp h
  obtain ⟨-, rfl⟩ := assertOwnerExists_ok.mp howner
  obtain ⟨existing, hexisting, h⟩ := exec_bind_read existingTransaction_ok h
  cases existing with
  | none => exact openWithdrawal_effect hamount hfee h
  | some tx =>
    obtain ⟨withdrawal, hwithdrawal, h⟩ := exec_bind_read withdrawalOf_ok h
    cases withdrawal with
    | none => exact openWithdrawal_effect hamount hfee h
    | some withdrawal =>
      obtain ⟨rfl, rfl⟩ := exec_pure_ok.mp h
      exact .refl s

variable {withdrawalId : String}

theorem approveWithdrawalRequest_effect {x : WithdrawalRequest} (hs : s.Integral)
    (h : exec (approveWithdrawalRequest withdrawalId) ⟨s, s⟩ = (.ok x, τ)) : Effect s τ.view := by
  obtain ⟨w, m, hfind, h⟩ := exec_bind_ok.mp h
  obtain ⟨rfl, hmem, rfl⟩ := findWithdrawal_ok hfind
  simp only [requireStatus_bind_ok, exec_modifyView_bind] at h
  obtain ⟨hpending, h⟩ := h
  obtain ⟨tx, htx, h⟩ := exec_bind_read transactionOf_ok h
  simp only [exec_modifyView_bind, flushStore, exec_flush_bind_ok] at h
  obtain ⟨-, h⟩ := h
  obtain ⟨rfl, rfl⟩ := exec_pure_ok.mp h
  have hbook : (s.setWithdrawalStatus w.withdrawalId .approved).book = s.book := by
    rw [Store.book_setWithdrawalStatus hs.withdrawal_ids hmem, if_pos (.inl hpending), if_pos (.inr rfl),
      sub_add_cancel, Book.set_eq_self]
  exact ⟨.of_book hbook, fun hpos =>
    ⟨hpos.topups, positive_setWithdrawalStatus hpos.withdrawals w.withdrawalId .approved⟩⟩

theorem unlockWithdrawal_effect {w x : WithdrawalRequest} (status : WithdrawalStatus) {txStatus : TxStatus}
    (hs : s.Integral) (hpos : s.RequestsPositive) (hmem : w ∈ s.withdrawals) (hpending : w.status = .pending)
    (hclosed : status ≠ .pending ∧ status ≠ .approved)
    (h : exec (unlockWithdrawal w status txStatus) ⟨s, s⟩ = (.ok x, τ)) : Effect s τ.view := by
  obtain ⟨wallet, m, hlock, h⟩ := exec_bind_ok.mp h
  obtain ⟨v, rfl, hv, hw⟩ := lockWallet_ok hlock
  simp only [exec_modifyView_bind] at h
  obtain ⟨tx, htx, h⟩ := exec_bind_read transactionOf_ok h
  simp only [exec_modifyView_bind, flushStore, exec_flush_bind_ok] at h
  obtain ⟨-, h⟩ := h
  obtain ⟨rfl, rfl⟩ := exec_pure_ok.mp h
  have hheld := Store.total_le_held hpos hmem (.inl hpending)
  rw [← hv.book] at hheld
  refine ⟨(Moves.of_book hv.book).trans (.release hheld ?_), fun hpos => ⟨hv.topups ▸ hpos.topups, ?_⟩⟩
  · exact book_close _ _ hw (hv.withdrawals ▸ hs.withdrawal_ids) (hv.withdrawals ▸ hmem) (.inl hpending) hclosed
  · exact positive_setWithdrawalStatus (s := v.putWallet _) (hv.withdrawals ▸ hpos.withdrawals) w.withdrawalId status

theorem rejectWithdrawalRequest_effect {x : WithdrawalRequest} (hs : s.Integral)
    (hpos : s.RequestsPositive) (h : exec (rejectWithdrawalRequest withdrawalId) ⟨s, s⟩ = (.ok x, τ)) :
    Effect s τ.view := by
  obtain ⟨w, m, hfind, h⟩ := exec_bind_ok.mp h
  obtain ⟨rfl, hmem, -⟩ := findWithdrawal_ok hfind
  obtain ⟨hpending, h⟩ := requireStatus_bind_ok.mp h
  exact unlockWithdrawal_effect .rejected hs hpos hmem hpending ⟨by decide, by decide⟩ h

theorem cancelWithdrawalRequest_effect {x : WithdrawalRequest}
    (hs : s.Integral) (hpos : s.RequestsPositive)
    (h : exec (cancelWithdrawalRequest withdrawalId ownerId) ⟨s, s⟩ = (.ok x, τ)) : Effect s τ.view := by
  obtain ⟨w, m, hfind, h⟩ := exec_bind_ok.mp h
  obtain ⟨rfl, hmem, -⟩ := findWithdrawal_ok hfind
  simp only [exec_require_bind_ok, requireStatus_bind_ok] at h
  obtain ⟨-, hpending, h⟩ := h
  exact unlockWithdrawal_effect .cancelled hs hpos hmem hpending ⟨by decide, by decide⟩ h

theorem completeWithdrawalRequest_effect (hs : s.Integral) (hpos : s.RequestsPositive)
    (h : exec (completeWithdrawalRequest withdrawalId d) ⟨s, s⟩ = (.ok x, τ)) : Effect s τ.view := by
  obtain ⟨w, m, hfind, h⟩ := exec_bind_ok.mp h
  obtain ⟨rfl, hmem, rfl⟩ := findWithdrawal_ok hfind
  obtain ⟨happroved, h⟩ := requireStatus_bind_ok.mp h
  obtain ⟨wallet, m, hlock, h⟩ := exec_bind_ok.mp h
  obtain ⟨v, rfl, hv, hw⟩ := lockWallet_ok hlock
  simp only [exec_modifyView_bind] at h
  obtain ⟨tx, htx, h⟩ := exec_bind_read transactionOf_ok h
  simp only [exec_modifyView_bind, writeEntry, flushStore, exec_flush_bind_ok] at h
  obtain ⟨-, h⟩ := h
  obtain ⟨rfl, rfl⟩ := exec_pure_ok.mp h
  have hheld := Store.total_le_held hpos hmem (.inr happroved)
  rw [← hv.book] at hheld
  refine ⟨(Moves.of_book hv.book).trans (.settle hheld ?_), fun hpos => ⟨hv.topups ▸ hpos.topups, ?_⟩⟩
  · have hclose := book_close 0 .completed hw (hv.withdrawals ▸ hs.withdrawal_ids) (hv.withdrawals ▸ hmem)
      (.inr happroved) ⟨by decide, by decide⟩
    have havailable : (v.book w.key).available = wallet.availableBalanceMinor := Store.available_of_findWallet hw
    have hlocked : (v.book w.key).locked = wallet.lockedBalanceMinor := Store.locked_of_findWallet hw
    rw [Store.book_addEntry, Store.book_setTransactionStatus, hclose]
    simp only [Account.settle, havailable, hlocked, WalletEntry.posting, signed_debit, WalletAccount.adjust]
    change Book.set (Book.set v.book w.key _) w.key _ = _
    rw [Book.set_set]
    simp [WalletEntry.key, WithdrawalRequest.key, sub_eq_add_neg]
  · exact positive_setWithdrawalStatus (s := v.putWallet _) (hv.withdrawals ▸ hpos.withdrawals) w.withdrawalId .completed

end Operations

end BotCord.Wallet
