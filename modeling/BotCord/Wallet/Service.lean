import BotCord.Wallet.Store

/-!
# The wallet service

`hub/services/wallet.py`, function by function. A call runs in a session of its own; the ids it generates are the draw it is given. Every function that inserts a transaction row ends its insert the same way: a unique-key conflict rolls the session back and answers with the row that holds the key.
-/

namespace BotCord.Wallet

open Transaction

abbrev Tx (α : Type) := Transaction Store Error α

/-- The ids one call generates. -/
structure Draw where
  txId : TxId
  requestId : String := ""
  firstEntryId : String := ""
  secondEntryId : String := ""

/-- Python's `str.startswith`. -/
def startsWith (text start : String) : Bool := start.toList.isPrefixOf text.toList

def flushStore : Tx Unit := flush Store.constraints

def scalarOneOrNone {ρ : Type} (rows : List ρ) : Tx (Option ρ) :=
  match rows with
  | [] => pure none
  | [row] => pure (some row)
  | _ => throw .multipleResultsFound

def scalarOne {ρ : Type} (rows : List ρ) : Tx ρ :=
  match rows with
  | [] => throw .noResultFound
  | [row] => pure row
  | _ => throw .multipleResultsFound

def assertOwnerExists (ownerId : OwnerId) : Tx Unit := do
  let s ← view
  if startsWith ownerId "ag_" then require (ownerId ∈ s.agents) (.value "Recipient agent not found")
  else if startsWith ownerId "hu_" then require (ownerId ∈ s.humans) (.value "Recipient human not found")
  else throw (.unsupportedOwner ownerId)

def lockWallet (ownerId : OwnerId) (assetCode : AssetCode) : Tx WalletAccount := do
  match (← view).findWallet (ownerId, assetCode) with
  | some wallet => return wallet
  | none =>
    let wallet : WalletAccount := { ownerId, assetCode }
    modifyView (·.addWallet wallet)
    flushStore
    return wallet

def writeEntry (entryId : String) (txId : TxId) (ownerId : OwnerId) (assetCode : AssetCode)
    (direction : EntryDirection) (amountMinor balanceAfterMinor : ℤ) : Tx Unit :=
  modifyView (·.addEntry { entryId, txId, ownerId, assetCode, direction, amountMinor, balanceAfterMinor })

/-- The rows under an idempotency key, which is scoped to the type and the initiator. -/
def keyedRows (s : Store) (key : Option String) (type : TxType) (ownerId : OwnerId) : List WalletTransaction :=
  s.transactions.filter fun t =>
    t.idempotencyKey = key ∧ t.type = type ∧ t.initiatorOwnerId = some ownerId

def keyedTransaction (key : Option String) (type : TxType) (ownerId : OwnerId) : Tx (Option WalletTransaction) := do
  scalarOneOrNone (keyedRows (← view) key type ownerId)

/-- `if idempotency_key:` holds of a key that is neither absent nor empty. -/
def Given (key : Option String) : Prop := key ≠ none ∧ key ≠ some ""
deriving Decidable

def existingTransaction (key : Option String) (type : TxType) (ownerId : OwnerId) : Tx (Option WalletTransaction) :=
  if Given key then keyedTransaction key type ownerId else pure none

/-- Insert a transaction row. A conflict rolls the session back; the caller then answers with what holds the key. -/
def insertTransaction (tx : WalletTransaction) : Tx Bool := do
  modifyView (·.addTransaction tx)
  match ← attempt flushStore with
  | .ok () => return true
  | .error .integrity =>
    rollback
    return false
  | .error e => throw e

def reloadExisting (key : Option String) (type : TxType) (ownerId : OwnerId) : Tx WalletTransaction := do
  match ← keyedTransaction key type ownerId with
  | some tx => return tx
  | none => throw (.value "Idempotency conflict")

structure GrantRequest where
  ownerId : OwnerId
  amountMinor : ℤ
  idempotencyKey : Option String := none
  referenceType : Option String := none
  referenceId : Option String := none
  assetCode : AssetCode := "COIN"

def creditGrant (r : GrantRequest) (d : Draw) : Tx WalletTransaction := do
  require (0 < r.amountMinor) (.value "Amount must be positive")
  assertOwnerExists r.ownerId
  let wallet ← lockWallet r.ownerId r.assetCode
  let tx : WalletTransaction :=
    { txId := d.txId, type := .grant, status := .completed, assetCode := r.assetCode
      amountMinor := r.amountMinor, feeMinor := 0, fromOwnerId := none, toOwnerId := some r.ownerId
      initiatorOwnerId := some r.ownerId, idempotencyKey := r.idempotencyKey
      referenceType := r.referenceType, referenceId := r.referenceId }
  match ← insertTransaction tx with
  | false => reloadExisting r.idempotencyKey .grant r.ownerId
  | true =>
    let wallet := wallet.adjust r.amountMinor 0
    modifyView (·.putWallet wallet)
    writeEntry d.firstEntryId d.txId r.ownerId r.assetCode .credit r.amountMinor
      (wallet.availableBalanceMinor + wallet.lockedBalanceMinor)
    return tx

def createGrant (r : GrantRequest) (d : Draw) : Tx WalletTransaction := do
  match ← existingTransaction r.idempotencyKey .grant r.ownerId with
  | some tx => return tx
  | none => creditGrant r d

structure TransferRequest where
  fromOwnerId : OwnerId
  toOwnerId : OwnerId
  amountMinor : ℤ
  idempotencyKey : Option String := none
  referenceType : Option String := none
  referenceId : Option String := none
  assetCode : AssetCode := "COIN"

/-- The transaction row a transfer inserts. -/
def TransferRequest.row (r : TransferRequest) (d : Draw) : WalletTransaction :=
  { txId := d.txId, type := .transfer, status := .completed, assetCode := r.assetCode
    amountMinor := r.amountMinor, feeMinor := 0, fromOwnerId := some r.fromOwnerId
    toOwnerId := some r.toOwnerId, initiatorOwnerId := some r.fromOwnerId
    idempotencyKey := r.idempotencyKey, referenceType := r.referenceType, referenceId := r.referenceId }

def lockBoth (fromOwnerId toOwnerId : OwnerId) (assetCode : AssetCode) : Tx (WalletAccount × WalletAccount) :=
  if toOwnerId < fromOwnerId then do
    let receiver ← lockWallet toOwnerId assetCode
    let sender ← lockWallet fromOwnerId assetCode
    return (sender, receiver)
  else do
    let sender ← lockWallet fromOwnerId assetCode
    let receiver ← lockWallet toOwnerId assetCode
    return (sender, receiver)

def validateTransfer (r : TransferRequest) : Tx Unit := do
  require (r.fromOwnerId ≠ r.toOwnerId) (.value "Cannot transfer to yourself")
  require (0 < r.amountMinor) (.value "Amount must be positive")
  assertOwnerExists r.fromOwnerId
  assertOwnerExists r.toOwnerId

def transferred (s : Store) (d : Draw) (r : TransferRequest) (sender receiver : WalletAccount) : Store :=
  let sender := sender.adjust (-r.amountMinor) 0
  let receiver := receiver.adjust r.amountMinor 0
  (((s.putWallet sender).addEntry
      ⟨d.firstEntryId, d.txId, r.fromOwnerId, r.assetCode, .debit, r.amountMinor,
        sender.availableBalanceMinor + sender.lockedBalanceMinor⟩).putWallet receiver).addEntry
    ⟨d.secondEntryId, d.txId, r.toOwnerId, r.assetCode, .credit, r.amountMinor,
      receiver.availableBalanceMinor + receiver.lockedBalanceMinor⟩

def moveBalance (r : TransferRequest) (d : Draw) : Tx WalletTransaction := do
  validateTransfer r
  let (sender, receiver) ← lockBoth r.fromOwnerId r.toOwnerId r.assetCode
  require (r.amountMinor ≤ sender.availableBalanceMinor) (.value "Insufficient balance")
  match ← insertTransaction (r.row d) with
  | false => reloadExisting r.idempotencyKey .transfer r.fromOwnerId
  | true =>
    modifyView (transferred · d r sender receiver)
    flushStore
    return r.row d

def createTransfer (r : TransferRequest) (d : Draw) : Tx WalletTransaction := do
  match ← existingTransaction r.idempotencyKey .transfer r.fromOwnerId with
  | some tx => return tx
  | none => moveBalance r d

structure TopupForm where
  ownerId : OwnerId
  amountMinor : ℤ
  channel : String := "mock"
  idempotencyKey : Option String := none
  assetCode : AssetCode := "COIN"

def topupOf (tx : WalletTransaction) : Tx (Option TopupRequest) := do
  scalarOneOrNone ((← view).topups.filter (·.txId = tx.txId))

def openTopup (r : TopupForm) (d : Draw) : Tx (TopupRequest × WalletTransaction) := do
  let tx : WalletTransaction :=
    { txId := d.txId, type := .topup, status := .pending, assetCode := r.assetCode
      amountMinor := r.amountMinor, feeMinor := 0, toOwnerId := some r.ownerId
      initiatorOwnerId := some r.ownerId, idempotencyKey := r.idempotencyKey }
  match ← insertTransaction tx with
  | false =>
    let tx ← reloadExisting r.idempotencyKey .topup r.ownerId
    match ← topupOf tx with
    | some topup => return (topup, tx)
    | none => throw (.value "Idempotency conflict")
  | true =>
    let topup : TopupRequest :=
      { topupId := d.requestId, ownerId := r.ownerId, assetCode := r.assetCode, amountMinor := r.amountMinor
        status := .pending, channel := r.channel, txId := d.txId }
    modifyView (·.addTopup topup)
    flushStore
    return (topup, tx)

def createTopupRequest (r : TopupForm) (d : Draw) : Tx (TopupRequest × WalletTransaction) := do
  require (0 < r.amountMinor) (.value "Amount must be positive")
  assertOwnerExists r.ownerId
  match ← existingTransaction r.idempotencyKey .topup r.ownerId with
  | some tx =>
    match ← topupOf tx with
    | some topup => return (topup, tx)
    | none => openTopup r d
  | none => openTopup r d

def pendingTopup (topupId : String) : Tx TopupRequest := do
  match ← scalarOneOrNone ((← view).topups.filter (·.topupId = topupId)) with
  | none => throw (.value "Topup request not found")
  | some topup =>
    require (topup.status = .pending)
      (.value ("Topup is not pending (current: " ++ topup.status.value ++ ")"))
    return topup

def transactionOf (txId : TxId) : Tx WalletTransaction := do
  scalarOne ((← view).transactions.filter (·.txId = txId))

def completeTopupRequest (topupId : String) (d : Draw) : Tx (TopupRequest × WalletTransaction) := do
  let topup ← pendingTopup topupId
  let wallet ← lockWallet topup.ownerId topup.assetCode
  let wallet := wallet.adjust topup.amountMinor 0
  modifyView (·.putWallet wallet)
  modifyView (·.setTopupStatus topupId .completed)
  let tx ← transactionOf topup.txId
  modifyView (·.setTransactionStatus tx.txId .completed)
  writeEntry d.firstEntryId tx.txId topup.ownerId topup.assetCode .credit topup.amountMinor
    (wallet.availableBalanceMinor + wallet.lockedBalanceMinor)
  flushStore
  return ({ topup with status := .completed }, { tx with status := .completed })

def failTopupRequest (topupId : String) : Tx TopupRequest := do
  let topup ← pendingTopup topupId
  modifyView (·.setTopupStatus topupId .failed)
  let tx ← transactionOf topup.txId
  modifyView (·.setTransactionStatus tx.txId .failed)
  flushStore
  return { topup with status := .failed }

structure WithdrawalForm where
  ownerId : OwnerId
  amountMinor : ℤ
  feeMinor : ℤ := 0
  destinationType : Option String := none
  destinationJson : Option String := none
  idempotencyKey : Option String := none
  assetCode : AssetCode := "COIN"

def withdrawalOf (tx : WalletTransaction) : Tx (Option WithdrawalRequest) := do
  scalarOneOrNone ((← view).withdrawals.filter (·.txId = tx.txId))

def openWithdrawal (r : WithdrawalForm) (d : Draw) : Tx (WithdrawalRequest × WalletTransaction) := do
  let total := r.amountMinor + r.feeMinor
  let wallet ← lockWallet r.ownerId r.assetCode
  require (total ≤ wallet.availableBalanceMinor) (.value "Insufficient balance")
  modifyView (·.putWallet (wallet.adjust (-total) total))
  let tx : WalletTransaction :=
    { txId := d.txId, type := .withdrawal, status := .pending, assetCode := r.assetCode
      amountMinor := r.amountMinor, feeMinor := r.feeMinor, fromOwnerId := some r.ownerId
      initiatorOwnerId := some r.ownerId, idempotencyKey := r.idempotencyKey }
  match ← insertTransaction tx with
  | false =>
    let tx ← reloadExisting r.idempotencyKey .withdrawal r.ownerId
    match ← withdrawalOf tx with
    | some withdrawal => return (withdrawal, tx)
    | none => throw (.value "Idempotency conflict")
  | true =>
    let withdrawal : WithdrawalRequest :=
      { withdrawalId := d.requestId, ownerId := r.ownerId, assetCode := r.assetCode
        amountMinor := r.amountMinor, feeMinor := r.feeMinor, status := .pending
        destinationType := r.destinationType, destinationJson := r.destinationJson, txId := d.txId }
    modifyView (·.addWithdrawal withdrawal)
    flushStore
    return (withdrawal, tx)

def createWithdrawalRequest (r : WithdrawalForm) (d : Draw) : Tx (WithdrawalRequest × WalletTransaction) := do
  require (0 < r.amountMinor) (.value "Amount must be positive")
  require (0 ≤ r.feeMinor) (.value "Fee must be non-negative")
  assertOwnerExists r.ownerId
  match ← existingTransaction r.idempotencyKey .withdrawal r.ownerId with
  | some tx =>
    match ← withdrawalOf tx with
    | some withdrawal => return (withdrawal, tx)
    | none => openWithdrawal r d
  | none => openWithdrawal r d

def findWithdrawal (withdrawalId : String) : Tx WithdrawalRequest := do
  match ← scalarOneOrNone ((← view).withdrawals.filter (·.withdrawalId = withdrawalId)) with
  | none => throw (.value "Withdrawal request not found")
  | some withdrawal => return withdrawal

/-- The check of a withdrawal's status, with the wanted and the present one in the message. -/
def requireStatus (withdrawal : WithdrawalRequest) (status : WithdrawalStatus) : Tx Unit :=
  require (withdrawal.status = status)
    (.value ("Withdrawal is not " ++ status.value ++ " (current: " ++ withdrawal.status.value ++ ")"))

def approveWithdrawalRequest (withdrawalId : String) : Tx WithdrawalRequest := do
  let withdrawal ← findWithdrawal withdrawalId
  requireStatus withdrawal .pending
  modifyView (·.setWithdrawalStatus withdrawalId .approved)
  let tx ← transactionOf withdrawal.txId
  modifyView (·.setTransactionStatus tx.txId .processing)
  flushStore
  return { withdrawal with status := .approved }

/-- Give the locked money back and close the withdrawal; rejecting and cancelling differ in the statuses they leave. -/
def unlockWithdrawal (withdrawal : WithdrawalRequest) (status : WithdrawalStatus) (txStatus : TxStatus) :
    Tx WithdrawalRequest := do
  let wallet ← lockWallet withdrawal.ownerId withdrawal.assetCode
  modifyView (·.putWallet (wallet.adjust withdrawal.total (-withdrawal.total)))
  modifyView (·.setWithdrawalStatus withdrawal.withdrawalId status)
  let tx ← transactionOf withdrawal.txId
  modifyView (·.setTransactionStatus tx.txId txStatus)
  flushStore
  return { withdrawal with status }

def rejectWithdrawalRequest (withdrawalId : String) : Tx WithdrawalRequest := do
  let withdrawal ← findWithdrawal withdrawalId
  requireStatus withdrawal .pending
  unlockWithdrawal withdrawal .rejected .failed

def completeWithdrawalRequest (withdrawalId : String) (d : Draw) : Tx (WithdrawalRequest × WalletTransaction) := do
  let withdrawal ← findWithdrawal withdrawalId
  requireStatus withdrawal .approved
  let wallet ← lockWallet withdrawal.ownerId withdrawal.assetCode
  let wallet := wallet.adjust 0 (-withdrawal.total)
  modifyView (·.putWallet wallet)
  modifyView (·.setWithdrawalStatus withdrawalId .completed)
  let tx ← transactionOf withdrawal.txId
  modifyView (·.setTransactionStatus tx.txId .completed)
  writeEntry d.firstEntryId tx.txId withdrawal.ownerId withdrawal.assetCode .debit withdrawal.total
    (wallet.availableBalanceMinor + wallet.lockedBalanceMinor)
  flushStore
  return ({ withdrawal with status := .completed }, { tx with status := .completed })

def cancelWithdrawalRequest (withdrawalId : String) (ownerId : OwnerId) : Tx WithdrawalRequest := do
  let withdrawal ← findWithdrawal withdrawalId
  require (withdrawal.ownerId = ownerId) (.value "Not authorized to cancel this withdrawal")
  requireStatus withdrawal .pending
  unlockWithdrawal withdrawal .cancelled .cancelled

inductive Operation
  | createGrant (r : GrantRequest) (d : Draw)
  | createTransfer (r : TransferRequest) (d : Draw)
  | createTopupRequest (r : TopupForm) (d : Draw)
  | completeTopupRequest (topupId : String) (d : Draw)
  | failTopupRequest (topupId : String)
  | createWithdrawalRequest (r : WithdrawalForm) (d : Draw)
  | approveWithdrawalRequest (withdrawalId : String)
  | rejectWithdrawalRequest (withdrawalId : String)
  | completeWithdrawalRequest (withdrawalId : String) (d : Draw)
  | cancelWithdrawalRequest (withdrawalId : String) (ownerId : OwnerId)

def Operation.call : Operation → Tx Unit
  | .createGrant r d => void (Wallet.createGrant r d)
  | .createTransfer r d => void (Wallet.createTransfer r d)
  | .createTopupRequest r d => void (Wallet.createTopupRequest r d)
  | .completeTopupRequest topupId d => void (Wallet.completeTopupRequest topupId d)
  | .failTopupRequest topupId => void (Wallet.failTopupRequest topupId)
  | .createWithdrawalRequest r d => void (Wallet.createWithdrawalRequest r d)
  | .approveWithdrawalRequest withdrawalId => void (Wallet.approveWithdrawalRequest withdrawalId)
  | .rejectWithdrawalRequest withdrawalId => void (Wallet.rejectWithdrawalRequest withdrawalId)
  | .completeWithdrawalRequest withdrawalId d => void (Wallet.completeWithdrawalRequest withdrawalId d)
  | .cancelWithdrawalRequest withdrawalId ownerId => void (Wallet.cancelWithdrawalRequest withdrawalId ownerId)

/-- One operation as one transaction: the call, and the flush of the commit. -/
def Operation.apply (op : Operation) (s : Store) : Store :=
  (atomically (do op.call; flushStore) s).2

def service : System Store Operation := System.total fun s op => op.apply s

end BotCord.Wallet
