import BotCord.Wallet.Store
import BotCord.Foundation.Ledger

/-!
# The accounts a store keeps

The wallet tables as a book of accounts: the balances are the wallet row's, the holds are the open withdrawals, and the history is the entries, each with the balance it recorded. What follows says how each statement on the tables changes the book; nothing here knows which operation issues the statement.
-/

namespace BotCord.Wallet

open Ledger

def WalletEntry.posting (e : WalletEntry) : Posting := ⟨e.signed, e.balanceAfterMinor⟩

def WithdrawalRequest.lockedIn (w : WithdrawalRequest) (key : WalletKey) : ℤ :=
  if w.key = key ∧ w.Open then w.total else 0

namespace Store

def available (s : Store) (key : WalletKey) : ℤ := ((s.findWallet key).map (·.availableBalanceMinor)).getD 0

def locked (s : Store) (key : WalletKey) : ℤ := ((s.findWallet key).map (·.lockedBalanceMinor)).getD 0

def held (s : Store) (key : WalletKey) : ℤ := Table.total (·.lockedIn key) s.withdrawals

def history (s : Store) (key : WalletKey) : List Posting := (s.entries.filter (·.key = key)).map WalletEntry.posting

/-- The account a wallet key names; a wallet without a row is an account with nothing in it. -/
def book (s : Store) : Book WalletKey := fun key =>
  ⟨s.available key, s.locked key, s.held key, s.history key⟩

structure RequestsPositive (s : Store) : Prop where
  topups : ∀ t ∈ s.topups, 0 < t.amountMinor
  withdrawals : ∀ w ∈ s.withdrawals, 0 < w.amountMinor ∧ 0 ≤ w.feeMinor

variable {w : WalletAccount} {s : Store} {key : WalletKey}

theorem key_of_findWallet (h : s.findWallet key = some w) :
    w.key = key := by
  simpa using List.find?_some h

theorem available_of_findWallet (h : s.findWallet key = some w) :
    s.available key = w.availableBalanceMinor := by
  rw [available, h]
  rfl

theorem locked_of_findWallet (h : s.findWallet key = some w) :
    s.locked key = w.lockedBalanceMinor := by
  rw [locked, h]
  rfl

theorem findWallet_of_mem (h : s.Integral) (hw : w ∈ s.wallets) :
    s.findWallet w.key = some w :=
  Table.find?_eq_some_of_mem h.wallet_keys hw

theorem total_le_held (hpos : s.RequestsPositive) {w : WithdrawalRequest} (hw : w ∈ s.withdrawals)
    (hopen : w.Open) : 0 ≤ w.total ∧ w.total ≤ (s.book w.key).held := by
  have htotal : ∀ x ∈ s.withdrawals, 0 ≤ x.total := by
    intro x hx
    have := hpos.withdrawals x hx
    unfold WithdrawalRequest.total
    omega
  have hweight : w.lockedIn w.key = w.total := if_pos ⟨rfl, hopen⟩
  have hweights : ∀ x ∈ s.withdrawals, 0 ≤ x.lockedIn w.key := by
    intro x hx
    unfold WithdrawalRequest.lockedIn
    split
    · exact htotal x hx
    · exact le_rfl
  exact ⟨htotal w hw, hweight ▸ Table.le_total hweights hw⟩

theorem findWallet_addWallet (key : WalletKey) :
    (s.addWallet w).findWallet key = (s.findWallet key).or (if w.key = key then some w else none) :=
  Table.find?_append_singleton

theorem book_addWallet {ownerId : OwnerId} {assetCode : AssetCode}
    (hnone : s.findWallet (ownerId, assetCode) = none) : (s.addWallet { ownerId, assetCode }).book = s.book := by
  funext key
  have hfind := findWallet_addWallet (s := s) (w := { ownerId, assetCode }) key
  rw [show ({ ownerId, assetCode } : WalletAccount).key = (ownerId, assetCode) from rfl] at hfind
  by_cases hkey : (ownerId, assetCode) = key
  · subst hkey
    rw [hnone, Option.none_or, if_pos rfl] at hfind
    simp only [book, available, locked, hfind, hnone]
    rfl
  · have hsame : (s.addWallet { ownerId, assetCode }).findWallet key = s.findWallet key := by
      rw [hfind, if_neg hkey, Option.or_none]
    simp only [book, available, locked, hsame]
    rfl

theorem findWallet_putWallet (key : WalletKey) :
    (s.putWallet w).findWallet key = (s.findWallet key).map fun old => if old.key = w.key then w else old := by
  unfold findWallet putWallet
  exact Table.find?_update (fun r _ hr => by rw [hr])

theorem findWallet_putWallet_same {w old : WalletAccount} (h : s.findWallet w.key = some old) :
    (s.putWallet w).findWallet w.key = some w := by
  rw [findWallet_putWallet, h, Option.map_some, if_pos (key_of_findWallet h)]

theorem findWallet_putWallet_of_ne (hne : key ≠ w.key) :
    (s.putWallet w).findWallet key = s.findWallet key := by
  rw [findWallet_putWallet]
  cases h : s.findWallet key with
  | none => rfl
  | some old => rw [Option.map_some, if_neg fun heq => hne ((key_of_findWallet h).symm.trans heq)]

theorem book_putWallet {w old : WalletAccount} (h : s.findWallet w.key = some old) :
    (s.putWallet w).book =
      s.book.set w.key { s.book w.key with available := w.availableBalanceMinor, locked := w.lockedBalanceMinor } := by
  funext key
  by_cases hkey : key = w.key
  · subst hkey
    rw [Book.set_same]
    simp only [book, available_of_findWallet (findWallet_putWallet_same h),
      locked_of_findWallet (findWallet_putWallet_same h)]
    rfl
  · rw [Book.set_of_ne _ _ hkey]
    simp only [book, available, locked, findWallet_putWallet_of_ne hkey]
    rfl

@[simp] theorem book_setTransactionStatus (s : Store) (txId : TxId) (status : TxStatus) :
    (s.setTransactionStatus txId status).book = s.book := rfl

theorem book_addEntry (s : Store) (e : WalletEntry) :
    (s.addEntry e).book = s.book.set e.key { s.book e.key with history := (s.book e.key).history ++ [e.posting] } := by
  funext key
  by_cases hkey : key = e.key
  · subst hkey
    rw [Book.set_same]
    simp only [book, history, addEntry, List.filter_append, List.map_append]
    simp [available, locked, held, findWallet]
  · rw [Book.set_of_ne _ _ hkey]
    simp only [book, history, addEntry, List.filter_append, List.map_append]
    simp [available, locked, held, findWallet, Ne.symm hkey]

theorem book_addWithdrawal (s : Store) {w : WithdrawalRequest} (hopen : w.Open) :
    (s.addWithdrawal w).book = s.book.set w.key { s.book w.key with held := (s.book w.key).held + w.total } := by
  funext key
  by_cases hkey : key = w.key
  · subst hkey
    rw [Book.set_same]
    simp [book, held, addWithdrawal, WithdrawalRequest.lockedIn, hopen, available, locked, history, findWallet]
  · rw [Book.set_of_ne _ _ hkey]
    simp [book, held, addWithdrawal, WithdrawalRequest.lockedIn, Ne.symm hkey, available, locked, history, findWallet]

theorem book_setWithdrawalStatus (hids : (s.withdrawals.map WithdrawalRequest.withdrawalId).Nodup)
    {w : WithdrawalRequest} (hw : w ∈ s.withdrawals) (status : WithdrawalStatus) :
    (s.setWithdrawalStatus w.withdrawalId status).book =
      s.book.set w.key { s.book w.key with
        held := (s.book w.key).held - (if w.Open then w.total else 0) +
          if ({ w with status } : WithdrawalRequest).Open then w.total else 0 } := by
  funext key
  have htotal : (s.setWithdrawalStatus w.withdrawalId status).held key =
      s.held key - w.lockedIn key + ({ w with status } : WithdrawalRequest).lockedIn key :=
    Table.total_update_key hids hw
  by_cases hkey : key = w.key
  · subst hkey
    rw [Book.set_same]
    simp only [book, htotal]
    simp [WithdrawalRequest.lockedIn, WithdrawalRequest.key, WithdrawalRequest.total, available, locked, history,
      findWallet, setWithdrawalStatus]
  · have hne : w.key ≠ key := Ne.symm hkey
    have hne' : ({ w with status } : WithdrawalRequest).key ≠ key := hne
    rw [Book.set_of_ne _ _ hkey]
    simp only [book, htotal, WithdrawalRequest.lockedIn, hne, hne', false_and, if_false, sub_zero, add_zero]
    rfl

end Store

end BotCord.Wallet
