import BotCord.Wallet.LockWallet
import BotCord.Wallet.Specs

/-!
# The rows a transfer writes

The rows of the wallet store that the sessions lock, what each write of a transfer does to them, and what it does to the part of a balance that is not due to transfers.
-/

/-!
## Interleaved transfers

`create_transfer` in any number of sessions at once, one statement a step, each session with a request of its own. The unique index on the key is a row that an uncommitted insert holds: a second insert of the key waits for it and, if it was committed, conflicts with it. Generated ids are taken to be fresh, so their index is never waited for.
-/

namespace BotCord.Wallet.Transfers

open Transaction

inductive Phase
  | called
  /-- The key was not found; next are the checks of the request. -/
  | validating
  | lockingFirst
  | openingFirst
  | lockingSecond (first : WalletAccount)
  | openingSecond (first : WalletAccount)
  /-- Both wallets are locked; next is the balance check and the insert. -/
  | inserting (first second : WalletAccount)
  /-- The insert conflicted and the session was rolled back. -/
  | reloading
  | inserted (first second : WalletAccount)
  /-- About to commit and answer. -/
  | returning (tx : WalletTransaction)
  | returned (tx : WalletTransaction)
  | raised (e : Error)
  | crashed
deriving DecidableEq

inductive Row
  | wallet (key : WalletKey)
  /-- The entry of a transfer's idempotency key in the unique index. -/
  | key (initiator : OwnerId) (key : String)
deriving DecidableEq

abbrev State := Sessions Store Row Phase

inductive Action
  /-- The session's next statement. -/
  | advance (i : ℕ)
  /-- The session's connection is lost. -/
  | crash (i : ℕ)

/-- The wallet a transfer locks first, and the one it locks second. -/
def firstKey (r : TransferRequest) : WalletKey :=
  (if r.toOwnerId < r.fromOwnerId then r.toOwnerId else r.fromOwnerId, r.assetCode)

def secondKey (r : TransferRequest) : WalletKey :=
  (if r.toOwnerId < r.fromOwnerId then r.fromOwnerId else r.toOwnerId, r.assetCode)

def senderOf (r : TransferRequest) (first second : WalletAccount) : WalletAccount :=
  if r.toOwnerId < r.fromOwnerId then second else first

def receiverOf (r : TransferRequest) (first second : WalletAccount) : WalletAccount :=
  if r.toOwnerId < r.fromOwnerId then first else second

/-- What a call that only reads answers in a session that sees this store. -/
def answer {α : Type} (x : Tx α) (s : Store) : Except Error α := (exec x ⟨s, s⟩).1

section Session

variable (request : ℕ → TransferRequest) (draw : ℕ → Draw) (d : State) (i : ℕ)

def raise (e : Error) : State := (d.rollback i).goto i (.raised e)

def lookup : State :=
  match answer (existingTransaction (request i).idempotencyKey .transfer (request i).fromOwnerId) (d.view i) with
  | .ok (some tx) => d.goto i (.returning tx)
  | .ok none => d.goto i .validating
  | .error e => raise d i e

def validate : State :=
  match answer (validateTransfer (request i)) (d.view i) with
  | .ok () => d.goto i .lockingFirst
  | .error e => raise d i e

def indexFree : Prop := ∀ key ∈ (request i).idempotencyKey, d.Free i (.key (request i).fromOwnerId key)
deriving Decidable

def lockIndex : State :=
  match (request i).idempotencyKey with
  | none => d
  | some key => d.lock i (.key (request i).fromOwnerId key)

def Conflicts (s : Store) (tx : WalletTransaction) : Prop := ∃ t ∈ s.transactions, t.Clash tx ∨ t.txId = tx.txId
deriving Decidable

def insert (first second : WalletAccount) : Option State :=
  let r := request i
  let tx := r.row (draw i)
  if (senderOf r first second).availableBalanceMinor < r.amountMinor then
    some (raise d i (.value "Insufficient balance"))
  else if ¬ FitsBigInteger r.amountMinor then some (raise d i .data)
  else if indexFree request d i then
    if Conflicts (d.view i) tx then some ((d.rollback i).goto i .reloading)
    else some (((lockIndex request d i).write i (·.addTransaction tx)).goto i (.inserted first second))
  else none

def reload : State :=
  match answer (reloadExisting (request i).idempotencyKey .transfer (request i).fromOwnerId) (d.view i) with
  | .ok tx => d.goto i (.returning tx)
  | .error e => raise d i e

def settle (first second : WalletAccount) : State :=
  let r := request i
  let move := (transferred · (draw i) r (senderOf r first second) (receiverOf r first second))
  match (move (d.view i)).constraints with
  | .ok () => (d.write i move).goto i (.returning (r.row (draw i)))
  | .error e => raise d i e

/-- One statement of a call; `none` where it waits for a row or has ended. -/
def advance : Option State :=
  let first := firstKey (request i)
  let second := secondKey (request i)
  match d.phase i with
  | .called => some (lookup request d i)
  | .validating => some (validate request d i)
  | .lockingFirst => selectWallet d i (.wallet first) first .lockingSecond .openingFirst
  | .openingFirst => insertWallet d i (.wallet first) first .lockingSecond (.raised .integrity)
  | .lockingSecond w => selectWallet d i (.wallet second) second (.inserting w) (.openingSecond w)
  | .openingSecond w => insertWallet d i (.wallet second) second (.inserting w) (.raised .integrity)
  | .inserting w w' => insert request draw d i w w'
  | .reloading => some (reload request d i)
  | .inserted w w' => some (settle request draw d i w w')
  | .returning tx => some ((d.commit i).goto i (.returned tx))
  | .returned _ | .raised _ | .crashed => none

def crash : Option State :=
  match d.phase i with
  | .returned _ | .raised _ | .crashed => none
  | _ => some ((d.rollback i).goto i .crashed)

end Session

def transfers (request : ℕ → TransferRequest) (draw : ℕ → Draw) : System State Action where
  step d
    | .advance i => advance request draw d i
    | .crash i => crash d i

end BotCord.Wallet.Transfers

namespace BotCord.Wallet.Transfers

abbrev RowValue : Row → Type
  | .wallet _ => Option WalletAccount
  | .key _ _ => List WalletTransaction

/-- The committed transfers under a key. -/
abbrev underKey (s : Store) (initiator : OwnerId) (key : String) : List WalletTransaction :=
  keyedRows s (some key) .transfer initiator

def row : ∀ k, Store → RowValue k
  | .wallet key, s => s.findWallet key
  | .key initiator key, s => underKey s initiator key

theorem addWallet_rowWise (w : WalletAccount) : Sessions.RowWise row (·.addWallet w) := by
  intro k s t h
  cases k with
  | wallet key =>
    change (s.addWallet w).findWallet key = (t.addWallet w).findWallet key
    rw [Store.findWallet_addWallet, Store.findWallet_addWallet, show s.findWallet key = t.findWallet key from h]
  | key initiator key => exact h

theorem addWallet_keeps {w : WalletAccount} {k : Row} (hk : k ≠ .wallet w.key) :
    Sessions.Keeps row k (·.addWallet w) := by
  intro s
  cases k with
  | wallet key =>
    change (s.addWallet w).findWallet key = s.findWallet key
    rw [Store.findWallet_addWallet, if_neg fun heq => hk (by rw [heq]), Option.or_none]
  | key initiator key => rfl

theorem underKey_addTransaction (s : Store) (tx : WalletTransaction) (initiator : OwnerId) (key : String) :
    underKey (s.addTransaction tx) initiator key = underKey s initiator key ++
      if tx.idempotencyKey = some key ∧ tx.type = .transfer ∧ tx.initiatorOwnerId = some initiator then [tx] else [] := by
  unfold underKey keyedRows
  simp only [Store.addTransaction, List.filter_append]
  congr 1
  split
  · rename_i h
    simp [h]
  · rename_i h
    simpa using h

theorem addTransaction_rowWise (tx : WalletTransaction) : Sessions.RowWise row (·.addTransaction tx) := by
  intro k s t h
  cases k with
  | wallet key => exact h
  | key initiator key =>
    change underKey (s.addTransaction tx) initiator key = underKey (t.addTransaction tx) initiator key
    rw [underKey_addTransaction, underKey_addTransaction,
      show underKey s initiator key = underKey t initiator key from h]

theorem findWallet_transferred (s : Store) (d : Draw) (r : TransferRequest) (sender receiver : WalletAccount)
    (key : WalletKey) : (transferred s d r sender receiver).findWallet key =
      ((s.findWallet key).map fun old => if old.key = sender.key then sender.adjust (-r.amountMinor) 0 else old).map
        fun old => if old.key = receiver.key then receiver.adjust r.amountMinor 0 else old := by
  rw [← WalletAccount.key_adjust sender (-r.amountMinor) 0, ← WalletAccount.key_adjust receiver r.amountMinor 0,
    ← Store.findWallet_putWallet]
  exact Store.findWallet_putWallet key

theorem transferred_rowWise (d : Draw) (r : TransferRequest) (sender receiver : WalletAccount) :
    Sessions.RowWise row (transferred · d r sender receiver) := by
  intro k s t h
  cases k with
  | wallet key =>
    change (transferred s d r sender receiver).findWallet key = (transferred t d r sender receiver).findWallet key
    rw [findWallet_transferred, findWallet_transferred, show s.findWallet key = t.findWallet key from h]
  | key initiator key => exact h

section Transferred

variable {s : Store} {r : TransferRequest} {sender receiver : WalletAccount}

theorem findWallet_transferred_of_ne (d : Draw) {key : WalletKey} (hsender : key ≠ sender.key)
    (hreceiver : key ≠ receiver.key) : (transferred s d r sender receiver).findWallet key = s.findWallet key := by
  rw [findWallet_transferred]
  cases hold : s.findWallet key with
  | none => rfl
  | some old =>
    have hkey := Store.key_of_findWallet hold
    rw [Option.map_some, if_neg (by rwa [hkey]), Option.map_some, if_neg (by rwa [hkey])]

theorem transferred_keeps (d : Draw) {k : Row} (hsender : k ≠ .wallet sender.key) (hreceiver : k ≠ .wallet receiver.key) :
    Sessions.Keeps row k (transferred · d r sender receiver) := by
  intro s
  cases k with
  | wallet key =>
    exact findWallet_transferred_of_ne d (fun h => hsender (by rw [h])) fun h => hreceiver (by rw [h])
  | key initiator key => rfl

theorem findWallet_transferred_sender (d : Draw) {key : WalletKey} (hsender : s.findWallet key = some sender)
    (hne : key ≠ receiver.key) :
    (transferred s d r sender receiver).findWallet key = some (sender.adjust (-r.amountMinor) 0) := by
  have hkey : (sender.adjust (-r.amountMinor) 0).key = key :=
    (WalletAccount.key_adjust ..).trans (Store.key_of_findWallet hsender)
  rw [findWallet_transferred, hsender, Option.map_some, if_pos rfl, Option.map_some, if_neg (by rwa [hkey])]

theorem findWallet_transferred_receiver (d : Draw) {key : WalletKey} (hreceiver : s.findWallet key = some receiver)
    (hne : key ≠ sender.key) :
    (transferred s d r sender receiver).findWallet key = some (receiver.adjust r.amountMinor 0) := by
  have hkey := Store.key_of_findWallet hreceiver
  rw [findWallet_transferred, hreceiver, Option.map_some, if_neg (by rwa [hkey]), Option.map_some, if_pos rfl]

end Transferred

/-- What a transfer does to a balance. -/
def effect (tx : WalletTransaction) (key : WalletKey) : ℤ :=
  if tx.type = .transfer then
    (if tx.toOwnerId = some key.1 ∧ tx.assetCode = key.2 then tx.amountMinor else 0) -
      (if tx.fromOwnerId = some key.1 ∧ tx.assetCode = key.2 then tx.amountMinor else 0)
  else 0

/-- The part of a balance that is not due to the transfers in the store. -/
def untransferred (s : Store) (key : WalletKey) : ℤ :=
  s.available key - Table.total (effect · key) s.transactions

theorem untransferred_addWallet {s : Store} {key : WalletKey} (hnone : s.findWallet key = none) :
    untransferred (s.addWallet (newWallet key)) = untransferred s := by
  funext k
  have havailable : (s.addWallet (newWallet key)).available k = s.available k :=
    congrArg Ledger.Account.available (congrFun (Store.book_addWallet hnone) k)
  rw [untransferred, havailable]
  rfl

theorem untransferred_addTransaction (s : Store) (tx : WalletTransaction) (key : WalletKey) :
    untransferred (s.addTransaction tx) key = untransferred s key - effect tx key := by
  have htotal : Table.total (effect · key) (s.addTransaction tx).transactions =
      Table.total (effect · key) s.transactions + effect tx key := by
    rw [Store.addTransaction, Table.total_append, Table.total_cons, Table.total_nil, add_zero]
  rw [untransferred, htotal, show (s.addTransaction tx).available key = s.available key from rfl, untransferred]
  ring

theorem effect_row (r : TransferRequest) (d : Draw) (key : WalletKey) :
    effect (r.row d) key = (if (r.toOwnerId, r.assetCode) = key then r.amountMinor else 0) -
      (if (r.fromOwnerId, r.assetCode) = key then r.amountMinor else 0) := by
  simp [effect, TransferRequest.row, Prod.ext_iff]

theorem untransferred_transferred {s : Store} {r : TransferRequest} {sender receiver : WalletAccount} (d : Draw)
    (hsender : s.findWallet (r.fromOwnerId, r.assetCode) = some sender)
    (hreceiver : s.findWallet (r.toOwnerId, r.assetCode) = some receiver) (hself : r.fromOwnerId ≠ r.toOwnerId)
    (key : WalletKey) :
    untransferred (transferred s d r sender receiver) key = untransferred s key + effect (r.row d) key := by
  have hsenderKey := Store.key_of_findWallet hsender
  have hreceiverKey := Store.key_of_findWallet hreceiver
  have hne : (r.fromOwnerId, r.assetCode) ≠ (r.toOwnerId, r.assetCode) := fun h => hself (Prod.mk.inj h).1
  have havailable : (transferred s d r sender receiver).available key = s.available key + effect (r.row d) key := by
    rw [effect_row]
    by_cases hto : (r.toOwnerId, r.assetCode) = key
    · subst hto
      rw [Store.available_of_findWallet (findWallet_transferred_receiver d hreceiver (by rw [hsenderKey]; exact hne.symm)),
        Store.available_of_findWallet hreceiver, if_pos rfl, if_neg hne, sub_zero]
      rfl
    · by_cases hfrom : (r.fromOwnerId, r.assetCode) = key
      · subst hfrom
        rw [Store.available_of_findWallet (findWallet_transferred_sender d hsender (by rw [hreceiverKey]; exact hne)),
          Store.available_of_findWallet hsender, if_neg hto, if_pos rfl, zero_sub]
        rfl
      · rw [if_neg hto, if_neg hfrom, sub_zero, add_zero, Store.available, Store.available,
          findWallet_transferred_of_ne d (by rw [hsenderKey]; exact Ne.symm hfrom)
            (by rw [hreceiverKey]; exact Ne.symm hto)]
  rw [untransferred, havailable, untransferred]
  change _ - Table.total (effect · key) s.transactions = _
  ring

end BotCord.Wallet.Transfers
