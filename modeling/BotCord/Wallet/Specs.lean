import BotCord.Wallet.Service
import BotCord.Wallet.Books

/-!
# What the calls do

One lemma for each helper of the wallet service, about the calls that return: what the session sees afterwards and what the answer is. The operations are then read through these and their definitions are not opened again.
-/

namespace BotCord.Wallet

open Transaction Ledger

/-- The store after locking wallets: wallets may have been created, and nothing else happened. -/
structure Extends (s v : Store) : Prop where
  book : v.book = s.book
  keeps : ∀ {key w}, s.findWallet key = some w → v.findWallet key = some w
  transactions : v.transactions = s.transactions
  entries : v.entries = s.entries
  topups : v.topups = s.topups
  withdrawals : v.withdrawals = s.withdrawals

theorem Extends.refl (s : Store) : Extends s s := ⟨rfl, id, rfl, rfl, rfl, rfl⟩

theorem Extends.trans {s v u : Store} (h : Extends s v) (h' : Extends v u) : Extends s u :=
  ⟨h'.book.trans h.book, fun hw => h'.keeps (h.keeps hw), h'.transactions.trans h.transactions,
    h'.entries.trans h.entries, h'.topups.trans h.topups, h'.withdrawals.trans h.withdrawals⟩

variable {ownerId : OwnerId} {assetCode : AssetCode}

theorem extends_addWallet {s : Store}
    (hnone : s.findWallet (ownerId, assetCode) = none) : Extends s (s.addWallet { ownerId, assetCode }) := by
  refine ⟨Store.book_addWallet hnone, ?_, rfl, rfl, rfl, rfl⟩
  intro key w hw
  rw [Store.findWallet_addWallet, hw, Option.some_or]

variable {σ τ : Session Store}

theorem scalarOneOrNone_ok {ρ : Type} {rows : List ρ} {r : Option ρ}
    (h : exec (scalarOneOrNone rows) σ = (.ok r, τ)) : τ = σ ∧ ∀ row, r = some row → rows = [row] := by
  match rows with
  | [] =>
    obtain ⟨rfl, rfl⟩ : none = r ∧ σ = τ := by simpa [scalarOneOrNone] using h
    simp
  | [row] =>
    obtain ⟨rfl, rfl⟩ : some row = r ∧ σ = τ := by simpa [scalarOneOrNone] using h
    simp
  | _ :: _ :: _ => simp [scalarOneOrNone] at h

theorem scalarOne_ok {ρ : Type} {rows : List ρ} {r : ρ}
    (h : exec (scalarOne rows) σ = (.ok r, τ)) : τ = σ ∧ rows = [r] := by
  match rows with
  | [] => simp [scalarOne] at h
  | [row] =>
    obtain ⟨rfl, rfl⟩ : row = r ∧ σ = τ := by simpa [scalarOne] using h
    simp
  | _ :: _ :: _ => simp [scalarOne] at h

def OwnerExists (s : Store) (ownerId : OwnerId) : Prop :=
  if startsWith ownerId "ag_" then ownerId ∈ s.agents else startsWith ownerId "hu_" ∧ ownerId ∈ s.humans

theorem assertOwnerExists_ok {u : Unit} :
    exec (assertOwnerExists ownerId) σ = (.ok u, τ) ↔ OwnerExists σ.view ownerId ∧ τ = σ := by
  rw [assertOwnerExists, exec_view_bind, OwnerExists]
  by_cases hagent : startsWith ownerId "ag_"
  · rw [if_pos hagent, if_pos hagent, exec_require_ok]
  · rw [if_neg hagent, if_neg hagent]
    by_cases hhuman : startsWith ownerId "hu_"
    · rw [if_pos hhuman, exec_require_ok]
      simp [hhuman]
    · rw [if_neg hhuman]
      simp [hhuman]

theorem validateTransfer_ok {r : TransferRequest} {u : Unit} :
    exec (validateTransfer r) σ = (.ok u, τ) ↔
      (r.fromOwnerId ≠ r.toOwnerId ∧ 0 < r.amountMinor ∧ OwnerExists σ.view r.fromOwnerId ∧
        OwnerExists σ.view r.toOwnerId) ∧ τ = σ := by
  rw [validateTransfer, exec_require_bind_ok, exec_require_bind_ok, exec_bind_ok]
  simp only [assertOwnerExists_ok]
  constructor
  · rintro ⟨hself, hamount, -, _, ⟨hfrom, rfl⟩, hto, rfl⟩
    exact ⟨⟨hself, hamount, hfrom, hto⟩, rfl⟩
  · rintro ⟨⟨hself, hamount, hfrom, hto⟩, rfl⟩
    exact ⟨hself, hamount, (), τ, ⟨hfrom, rfl⟩, hto, rfl⟩

theorem lockWallet_ok {w : WalletAccount}
    (h : exec (lockWallet ownerId assetCode) σ = (.ok w, τ)) :
    ∃ v, τ = { σ with view := v } ∧ Extends σ.view v ∧ v.findWallet (ownerId, assetCode) = some w := by
  rw [lockWallet, exec_view_bind] at h
  cases hfind : σ.view.findWallet (ownerId, assetCode) with
  | some wallet =>
    obtain ⟨rfl, rfl⟩ : wallet = w ∧ σ = τ := by simpa [hfind] using h
    exact ⟨σ.view, rfl, .refl _, hfind⟩
  | none =>
    rw [hfind] at h
    simp only [exec_modifyView_bind, flushStore, exec_flush_bind_ok, exec_pure, Prod.mk.injEq, Except.ok.injEq] at h
    obtain ⟨-, rfl, rfl⟩ := h
    refine ⟨_, rfl, extends_addWallet hfind, ?_⟩
    rw [Store.findWallet_addWallet, hfind, Option.none_or]
    exact if_pos rfl

theorem lockBoth_ok {fromOwnerId toOwnerId : OwnerId}
    {pair : WalletAccount × WalletAccount} (h : exec (lockBoth fromOwnerId toOwnerId assetCode) σ = (.ok pair, τ)) :
    ∃ v, τ = { σ with view := v } ∧ Extends σ.view v ∧
      v.findWallet (fromOwnerId, assetCode) = some pair.1 ∧ v.findWallet (toOwnerId, assetCode) = some pair.2 := by
  unfold lockBoth at h
  split at h
  · obtain ⟨receiver, m, hreceiver, h⟩ := exec_bind_ok.mp h
    obtain ⟨sender, m', hsender, h⟩ := exec_bind_ok.mp h
    obtain ⟨v, rfl, hv, hfound⟩ := lockWallet_ok hreceiver
    obtain ⟨v', rfl, hv', hfound'⟩ := lockWallet_ok hsender
    obtain ⟨rfl, rfl⟩ := exec_pure_ok.mp h
    exact ⟨v', rfl, hv.trans hv', hfound', hv'.keeps hfound⟩
  · obtain ⟨sender, m, hsender, h⟩ := exec_bind_ok.mp h
    obtain ⟨receiver, m', hreceiver, h⟩ := exec_bind_ok.mp h
    obtain ⟨v, rfl, hv, hfound⟩ := lockWallet_ok hsender
    obtain ⟨v', rfl, hv', hfound'⟩ := lockWallet_ok hreceiver
    obtain ⟨rfl, rfl⟩ := exec_pure_ok.mp h
    exact ⟨v', rfl, hv.trans hv', hv'.keeps hfound, hfound'⟩

variable {key : Option String} {type : TxType}

theorem keyedTransaction_ok
    {r : Option WalletTransaction} (h : exec (keyedTransaction key type ownerId) σ = (.ok r, τ)) : τ = σ := by
  rw [keyedTransaction, exec_view_bind] at h
  exact (scalarOneOrNone_ok h).1

theorem existingTransaction_ok
    {r : Option WalletTransaction} (h : exec (existingTransaction key type ownerId) σ = (.ok r, τ)) : τ = σ := by
  unfold existingTransaction at h
  split at h
  · exact keyedTransaction_ok h
  · exact (Prod.mk.inj h).2.symm

variable {tx : WalletTransaction}

theorem reloadExisting_ok
    (h : exec (reloadExisting key type ownerId) σ = (.ok tx, τ)) : τ = σ := by
  obtain ⟨r, m, hr, h⟩ := exec_bind_ok.mp h
  obtain rfl := keyedTransaction_ok hr
  cases r with
  | none => simp at h
  | some tx => exact (exec_pure_ok.mp h).2.symm

theorem topupOf_ok {r : Option TopupRequest}
    (h : exec (topupOf tx) σ = (.ok r, τ)) : τ = σ := by
  rw [topupOf, exec_view_bind] at h
  exact (scalarOneOrNone_ok h).1

theorem withdrawalOf_ok {r : Option WithdrawalRequest}
    (h : exec (withdrawalOf tx) σ = (.ok r, τ)) : τ = σ := by
  rw [withdrawalOf, exec_view_bind] at h
  exact (scalarOneOrNone_ok h).1

theorem transactionOf_ok {txId : TxId}
    (h : exec (transactionOf txId) σ = (.ok tx, τ)) : τ = σ := by
  rw [transactionOf, exec_view_bind] at h
  exact (scalarOne_ok h).1

theorem insertTransaction_ok {inserted : Bool}
    (h : exec (insertTransaction tx) σ = (.ok inserted, τ)) :
    (inserted = true ∧ τ = { σ with view := σ.view.addTransaction tx }) ∨
      (inserted = false ∧ τ = { σ with view := σ.committed }) := by
  rw [insertTransaction, exec_modifyView_bind, exec_attempt_bind] at h
  simp only [flushStore, exec_flush] at h
  cases hflush : (σ.view.addTransaction tx).constraints with
  | ok u =>
    left
    simpa [hflush, eq_comm] using h
  | error e =>
    rw [hflush] at h
    cases e with
    | integrity =>
      right
      simp only [exec_rollback_bind] at h
      obtain ⟨rfl, rfl⟩ := exec_pure_ok.mp h
      exact ⟨rfl, rfl⟩
    | _ => simp at h

theorem pendingTopup_ok {topupId : String} {topup : TopupRequest}
    (h : exec (pendingTopup topupId) σ = (.ok topup, τ)) :
    τ = σ ∧ topup ∈ σ.view.topups ∧ topup.topupId = topupId ∧ topup.status = .pending := by
  rw [pendingTopup, exec_view_bind] at h
  obtain ⟨r, m, hr, h⟩ := exec_bind_ok.mp h
  obtain ⟨rfl, hrows⟩ := scalarOneOrNone_ok hr
  cases r with
  | none => simp at h
  | some row =>
    simp only [exec_require_bind_ok, exec_pure, Prod.mk.injEq, Except.ok.injEq] at h
    obtain ⟨hpending, rfl, rfl⟩ := h
    have hmem : row ∈ m.view.topups.filter (·.topupId = topupId) := by simp [hrows row rfl]
    rw [List.mem_filter] at hmem
    exact ⟨rfl, hmem.1, by simpa using hmem.2, hpending⟩

theorem findWithdrawal_ok {withdrawalId : String} {w : WithdrawalRequest}
    (h : exec (findWithdrawal withdrawalId) σ = (.ok w, τ)) :
    τ = σ ∧ w ∈ σ.view.withdrawals ∧ w.withdrawalId = withdrawalId := by
  rw [findWithdrawal, exec_view_bind] at h
  obtain ⟨r, m, hr, h⟩ := exec_bind_ok.mp h
  obtain ⟨rfl, hrows⟩ := scalarOneOrNone_ok hr
  cases r with
  | none => simp at h
  | some row =>
    obtain ⟨rfl, rfl⟩ : row = w ∧ m = τ := by simpa using h
    have hmem : row ∈ m.view.withdrawals.filter (·.withdrawalId = withdrawalId) := by simp [hrows row rfl]
    rw [List.mem_filter] at hmem
    exact ⟨rfl, hmem.1, by simpa using hmem.2⟩

theorem requireStatus_bind_ok {α : Type} {w : WithdrawalRequest} {status : WithdrawalStatus} {f : Unit → Tx α}
    {a : α} :
    exec (requireStatus w status >>= f) σ = (.ok a, τ) ↔ w.status = status ∧ exec (f ()) σ = (.ok a, τ) :=
  exec_require_bind_ok ..

end BotCord.Wallet
