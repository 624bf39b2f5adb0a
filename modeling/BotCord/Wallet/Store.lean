import BotCord.Foundation.Run
import BotCord.Foundation.Transaction
import BotCord.Foundation.Table

/-!
# The wallet tables

The rows of `hub/models.py` and `hub/enums.py` that the wallet service reads and writes, the store they make up, and the constraints the database holds it to. A statement is a function of the store; a constraint is checked where the session flushes. Columns that no wallet function reads back (timestamps, JSON texts, review notes) are left out.
-/

namespace BotCord.Wallet

abbrev OwnerId := String
abbrev AssetCode := String
abbrev TxId := String

inductive TxType
  | grant | topup | withdrawal | transfer
deriving DecidableEq

inductive TxStatus
  | pending | processing | completed | failed | cancelled
deriving DecidableEq

inductive TopupStatus
  | pending | completed | failed | cancelled
deriving DecidableEq

inductive WithdrawalStatus
  | pending | approved | rejected | completed | cancelled
deriving DecidableEq

inductive EntryDirection
  | debit | credit
deriving DecidableEq

def TopupStatus.value : TopupStatus → String
  | pending => "pending"
  | completed => "completed"
  | failed => "failed"
  | cancelled => "cancelled"

def WithdrawalStatus.value : WithdrawalStatus → String
  | pending => "pending"
  | approved => "approved"
  | rejected => "rejected"
  | completed => "completed"
  | cancelled => "cancelled"

structure WalletAccount where
  ownerId : OwnerId
  assetCode : AssetCode
  availableBalanceMinor : ℤ := 0
  lockedBalanceMinor : ℤ := 0
  version : ℕ := 0
deriving DecidableEq

structure WalletTransaction where
  txId : TxId
  type : TxType
  status : TxStatus := .pending
  assetCode : AssetCode
  amountMinor : ℤ
  feeMinor : ℤ := 0
  fromOwnerId : Option OwnerId := none
  toOwnerId : Option OwnerId := none
  initiatorOwnerId : Option OwnerId := none
  referenceType : Option String := none
  referenceId : Option String := none
  idempotencyKey : Option String := none
deriving DecidableEq

structure WalletEntry where
  entryId : String
  txId : TxId
  ownerId : OwnerId
  assetCode : AssetCode
  direction : EntryDirection
  amountMinor : ℤ
  balanceAfterMinor : ℤ

structure TopupRequest where
  topupId : String
  ownerId : OwnerId
  assetCode : AssetCode
  amountMinor : ℤ
  status : TopupStatus := .pending
  channel : String := "mock"
  externalRef : Option String := none
  txId : TxId
deriving DecidableEq

structure WithdrawalRequest where
  withdrawalId : String
  ownerId : OwnerId
  assetCode : AssetCode
  amountMinor : ℤ
  feeMinor : ℤ := 0
  status : WithdrawalStatus := .pending
  destinationType : Option String := none
  destinationJson : Option String := none
  txId : TxId

abbrev WalletKey := OwnerId × AssetCode

def WalletAccount.key (w : WalletAccount) : WalletKey := (w.ownerId, w.assetCode)
/-- The assignments every balance change makes: the two balances move and the version counts up. -/
def WalletAccount.adjust (w : WalletAccount) (available locked : ℤ) : WalletAccount :=
  { w with
    availableBalanceMinor := w.availableBalanceMinor + available
    lockedBalanceMinor := w.lockedBalanceMinor + locked
    version := w.version + 1 }

def WalletEntry.key (e : WalletEntry) : WalletKey := (e.ownerId, e.assetCode)
def TopupRequest.key (t : TopupRequest) : WalletKey := (t.ownerId, t.assetCode)
def WithdrawalRequest.key (w : WithdrawalRequest) : WalletKey := (w.ownerId, w.assetCode)

@[simp] theorem WalletAccount.key_adjust (w : WalletAccount) (available locked : ℤ) :
    (w.adjust available locked).key = w.key := rfl

/-- The ledger effect of an entry. -/
def WalletEntry.signed (e : WalletEntry) : ℤ :=
  match e.direction with
  | .credit => e.amountMinor
  | .debit => -e.amountMinor

def WithdrawalRequest.total (w : WithdrawalRequest) : ℤ := w.amountMinor + w.feeMinor

def WithdrawalRequest.Open (w : WithdrawalRequest) : Prop := w.status = .pending ∨ w.status = .approved
deriving Decidable

/-- The wallet tables, with the ids of the registered agents and humans that owners are checked against. -/
structure Store where
  agents : List OwnerId
  humans : List OwnerId
  wallets : List WalletAccount := []
  transactions : List WalletTransaction := []
  entries : List WalletEntry := []
  topups : List TopupRequest := []
  withdrawals : List WithdrawalRequest := []

inductive Error
  /-- `ValueError`, with its text. -/
  | value (message : String)
  /-- The `ValueError` whose text quotes an owner id of no known kind. -/
  | unsupportedOwner (ownerId : OwnerId)
  | integrity
  | data
  | noResultFound
  | multipleResultsFound
deriving DecidableEq

def maxBigInteger : ℤ := 2 ^ 63 - 1

/-- The values a `BigInteger` column can hold. -/
def FitsBigInteger (n : ℤ) : Prop := -maxBigInteger - 1 ≤ n ∧ n ≤ maxBigInteger
deriving Decidable

/-- `uq_tx_idem`: rows with a null key never clash. -/
def WalletTransaction.Clash (left right : WalletTransaction) : Prop :=
  left.idempotencyKey.isSome ∧ left.initiatorOwnerId.isSome ∧ left.type = right.type ∧
    left.initiatorOwnerId = right.initiatorOwnerId ∧ left.idempotencyKey = right.idempotencyKey
deriving Decidable

namespace Store

structure InRange (s : Store) : Prop where
  wallets : ∀ w ∈ s.wallets, FitsBigInteger w.availableBalanceMinor ∧ FitsBigInteger w.lockedBalanceMinor ∧
    w.version < 2 ^ 31
  transactions : ∀ t ∈ s.transactions, FitsBigInteger t.amountMinor ∧ FitsBigInteger t.feeMinor
  entries : ∀ e ∈ s.entries, FitsBigInteger e.amountMinor ∧ FitsBigInteger e.balanceAfterMinor
  topups : ∀ t ∈ s.topups, FitsBigInteger t.amountMinor
  withdrawals : ∀ w ∈ s.withdrawals, FitsBigInteger w.amountMinor ∧ FitsBigInteger w.feeMinor

/-- The unique and check constraints of the wallet tables. -/
structure Integral (s : Store) : Prop where
  wallet_keys : (s.wallets.map WalletAccount.key).Nodup
  available_nonneg : ∀ w ∈ s.wallets, 0 ≤ w.availableBalanceMinor
  locked_nonneg : ∀ w ∈ s.wallets, 0 ≤ w.lockedBalanceMinor
  tx_ids : (s.transactions.map WalletTransaction.txId).Nodup
  idempotency : s.transactions.Pairwise fun left right => ¬ left.Clash right
  entry_ids : (s.entries.map WalletEntry.entryId).Nodup
  topup_ids : (s.topups.map TopupRequest.topupId).Nodup
  withdrawal_ids : (s.withdrawals.map WithdrawalRequest.withdrawalId).Nodup

instance (s : Store) : Decidable s.InRange :=
  decidable_of_iff
    ((∀ w ∈ s.wallets, FitsBigInteger w.availableBalanceMinor ∧ FitsBigInteger w.lockedBalanceMinor ∧
        w.version < 2 ^ 31) ∧
      (∀ t ∈ s.transactions, FitsBigInteger t.amountMinor ∧ FitsBigInteger t.feeMinor) ∧
      (∀ e ∈ s.entries, FitsBigInteger e.amountMinor ∧ FitsBigInteger e.balanceAfterMinor) ∧
      (∀ t ∈ s.topups, FitsBigInteger t.amountMinor) ∧
      (∀ w ∈ s.withdrawals, FitsBigInteger w.amountMinor ∧ FitsBigInteger w.feeMinor))
    ⟨fun ⟨a, b, c, d, e⟩ => ⟨a, b, c, d, e⟩, fun ⟨a, b, c, d, e⟩ => ⟨a, b, c, d, e⟩⟩

instance (s : Store) : Decidable s.Integral :=
  decidable_of_iff
    ((s.wallets.map WalletAccount.key).Nodup ∧ (∀ w ∈ s.wallets, 0 ≤ w.availableBalanceMinor) ∧
      (∀ w ∈ s.wallets, 0 ≤ w.lockedBalanceMinor) ∧ (s.transactions.map WalletTransaction.txId).Nodup ∧
      (s.transactions.Pairwise fun left right => ¬ left.Clash right) ∧
      (s.entries.map WalletEntry.entryId).Nodup ∧ (s.topups.map TopupRequest.topupId).Nodup ∧
      (s.withdrawals.map WithdrawalRequest.withdrawalId).Nodup)
    ⟨fun ⟨a, b, c, d, e, f, g, h⟩ => ⟨a, b, c, d, e, f, g, h⟩,
      fun ⟨a, b, c, d, e, f, g, h⟩ => ⟨a, b, c, d, e, f, g, h⟩⟩

def constraints (s : Store) : Except Error Unit :=
  if ¬ s.InRange then .error .data else if ¬ s.Integral then .error .integrity else .ok ()

theorem integral_of_constraints {s : Store} (h : s.constraints = .ok ()) : s.Integral := by
  unfold constraints at h
  split at h
  · cases h
  · split at h
    · cases h
    · rename_i hintegral
      exact not_not.mp hintegral

def findWallet (s : Store) (key : WalletKey) : Option WalletAccount := s.wallets.find? (·.key = key)

def addWallet (s : Store) (w : WalletAccount) : Store := { s with wallets := s.wallets ++ [w] }

def putWallet (s : Store) (w : WalletAccount) : Store :=
  { s with wallets := Table.update (·.key = w.key) (fun _ => w) s.wallets }

def addTransaction (s : Store) (t : WalletTransaction) : Store := { s with transactions := s.transactions ++ [t] }

def setTransactionStatus (s : Store) (txId : TxId) (status : TxStatus) : Store :=
  { s with transactions := Table.update (·.txId = txId) (fun t => { t with status }) s.transactions }

def addEntry (s : Store) (e : WalletEntry) : Store := { s with entries := s.entries ++ [e] }

def addTopup (s : Store) (t : TopupRequest) : Store := { s with topups := s.topups ++ [t] }

def setTopupStatus (s : Store) (topupId : String) (status : TopupStatus) : Store :=
  { s with topups := Table.update (·.topupId = topupId) (fun t => { t with status }) s.topups }

def addWithdrawal (s : Store) (w : WithdrawalRequest) : Store := { s with withdrawals := s.withdrawals ++ [w] }

def setWithdrawalStatus (s : Store) (withdrawalId : String) (status : WithdrawalStatus) : Store :=
  { s with
    withdrawals := Table.update (·.withdrawalId = withdrawalId) (fun w => { w with status }) s.withdrawals }

/-- The wallet tables before anything happened. -/
def empty (agents humans : List OwnerId) : Store := { agents, humans }

end Store

end BotCord.Wallet
