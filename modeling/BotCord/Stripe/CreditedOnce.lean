import BotCord.Wallet.Books
import BotCord.Wallet.LockWallet

/-!
# A paid checkout is credited once

A topup is credited as often as it is completed, and it is completed at most once, in every run in which no session takes the topup's row lock with an outdated row object in hand. Without that condition two sessions that both read the topup as pending both credit it, because the check in `complete_topup_request` looks at the object the session already had.

The invariant: only the holder of the row lock has uncommitted writes, and whatever a session sees, committed or its own, is a store whose balance and entries agree with the status of the topup.
-/

/-!
## Fulfilling a paid checkout

`fulfill_stripe_checkout` of `hub/services/stripe_topup.py` with the two callers it has, the webhook and the session-status poll, for one checkout that Stripe reports as paid. Each session goes through its statements in order and any number of sessions interleave.

The row object a session loaded once stays as it was loaded: a later select of the same row, also one that takes its lock, returns the object of the identity map unchanged. This is why the phases below carry the topup they read.
-/

namespace BotCord.Stripe

open Wallet

/-- What Stripe says of the paid checkout session. -/
structure Checkout where
  sessionId : String
  /-- `metadata.topup_id` -/
  topupId : String
  /-- `metadata.coin_amount_minor`, if it is there. -/
  coinAmountMinor : Option ℤ := none

inductive Caller
  | webhook
  | poll (agentId : OwnerId)

inductive Phase
  | called
  /-- The poll has read a topup and found it pending. -/
  | loaded (topup : TopupRequest)
  /-- The topup has no `external_ref` yet. -/
  | binding (topup : TopupRequest)
  /-- About to run `complete_topup_request`. -/
  | completing (topup : TopupRequest)
  /-- The topup row is locked; next is the wallet row. -/
  | funding (topup : TopupRequest)
  /-- There is no wallet row to lock; next is its insert. -/
  | opening (topup : TopupRequest)
  | funded (topup : TopupRequest) (wallet : WalletAccount)
  /-- About to commit and answer. -/
  | answering (topup : TopupRequest)
  | answered (topup : TopupRequest)
  | failed

inductive Row
  | topup (topupId : String)
  | wallet (key : WalletKey)
deriving DecidableEq

abbrev State := Sessions Store Row Phase

inductive Action
  /-- The session's next statement; the id is the one it would generate. -/
  | advance (i : ℕ) (entryId : String)
  /-- The session ends without a commit. -/
  | crash (i : ℕ)

def findTopup (s : Store) (topupId : String) : Option TopupRequest := s.topups.find? (·.topupId = topupId)

/-- The topup the poll looks at: by `external_ref` first, then by the id in Stripe's metadata. -/
def pollTopup (s : Store) (c : Checkout) : Except Error (Option TopupRequest) :=
  match s.topups.filter (·.externalRef = some c.sessionId) with
  | [] => .ok (findTopup s c.topupId)
  | [topup] => .ok (some topup)
  | _ => .error .multipleResultsFound

def setExternalRef (topupId sessionId : String) (s : Store) : Store :=
  { s with
    topups := Table.update (·.topupId = topupId) (fun t => { t with externalRef := some sessionId }) s.topups }

section Session

variable (c : Checkout) (caller : ℕ → Caller) (d : State) (i : ℕ)

def fail : State := (d.rollback i).goto i .failed

/-- A `FulfillmentError` or a `ValueError`: the webhook gives up its session, the poll answers with the topup it has. -/
def refuse (topup : TopupRequest) : State :=
  match caller i with
  | .webhook => fail d i
  | .poll _ => d.goto i (.answering topup)

/-- The checks of `fulfill_stripe_checkout` after `external_ref`. -/
def checkPending (topup : TopupRequest) : State :=
  if topup.status = .completed then d.goto i (.answering topup)
  else if topup.status ≠ .pending then refuse caller d i topup
  else if ∃ coin ∈ c.coinAmountMinor, coin ≠ topup.amountMinor then refuse caller d i topup
  else d.goto i (.completing topup)

def checkExternalRef (topup : TopupRequest) : State :=
  if topup.externalRef = none ∨ topup.externalRef = some "" then d.goto i (.binding topup)
  else if topup.externalRef ≠ some c.sessionId then refuse caller d i topup
  else checkPending c caller d i topup

/-- The select of `fulfill_stripe_checkout`; `loaded` is the object the session has of the row already. -/
def selectTopup (loaded : Option TopupRequest) : State :=
  match loaded with
  | some topup => checkExternalRef c caller d i topup
  | none =>
    match findTopup (d.view i) c.topupId with
    | none => fail d i
    | some topup => checkExternalRef c caller d i topup

/-- The reads of `get_checkout_status` before it calls `fulfill_stripe_checkout`. -/
def preload (agentId : OwnerId) : State :=
  match pollTopup (d.view i) c with
  | .ok (some topup) =>
    if topup.ownerId ≠ agentId then fail d i
    else if topup.status = .pending then d.goto i (.loaded topup)
    else d.goto i (.answering topup)
  | _ => fail d i

/-- The writes of `complete_topup_request`, flushed together. -/
def completion (topup : TopupRequest) (wallet : WalletAccount) (entryId : String) (s : Store) : Store :=
  let wallet := wallet.adjust topup.amountMinor 0
  (((s.putWallet wallet).setTopupStatus topup.topupId .completed).setTransactionStatus topup.txId .completed).addEntry
    { entryId, txId := topup.txId, ownerId := topup.ownerId, assetCode := topup.assetCode, direction := .credit
      amountMinor := topup.amountMinor
      balanceAfterMinor := wallet.availableBalanceMinor + wallet.lockedBalanceMinor }

/-- Flush the completion; a missing transaction row or a violated constraint ends the session. -/
def complete (topup : TopupRequest) (wallet : WalletAccount) (entryId : String) : State :=
  if (d.view i).transactions.any (·.txId = topup.txId) ∧
      (completion topup wallet entryId (d.view i)).constraints = .ok () then
    (d.write i (completion topup wallet entryId)).goto i (.answering { topup with status := .completed })
  else fail d i

/-- One statement of a session; `none` where it waits for a row or has ended. -/
def advance (entryId : String) : Option State :=
  match d.phase i with
  | .called =>
    match caller i with
    | .webhook => some (selectTopup c caller d i none)
    | .poll agentId => some (preload c d i agentId)
  | .loaded topup =>
    some (selectTopup c caller d i (if topup.topupId = c.topupId then some topup else none))
  | .binding topup =>
    if d.Free i (.topup topup.topupId) then
      let bound := (d.lock i (.topup topup.topupId)).write i (setExternalRef topup.topupId c.sessionId)
      some (checkPending c caller bound i { topup with externalRef := some c.sessionId })
    else none
  | .completing topup =>
    if d.Free i (.topup topup.topupId) then
      match findTopup (d.view i) topup.topupId with
      | none => some (refuse caller d i topup)
      | some _ =>
        if topup.status = .pending then some ((d.lock i (.topup topup.topupId)).goto i (.funding topup))
        else some (refuse caller d i topup)
    else none
  | .funding topup => selectWallet d i (.wallet topup.key) topup.key (.funded topup) (.opening topup)
  | .opening topup => insertWallet d i (.wallet topup.key) topup.key (.funded topup) .failed
  | .funded topup wallet => some (complete d i topup wallet entryId)
  | .answering topup => some ((d.commit i).goto i (.answered topup))
  | .answered _ | .failed => none

def crash : Option State :=
  match d.phase i with
  | .answered _ | .failed => none
  | _ => some (fail d i)

end Session

def fulfillment (c : Checkout) (caller : ℕ → Caller) : System State Action where
  step d
    | .advance i entryId => advance c caller d i entryId
    | .crash i => crash d i

end BotCord.Stripe

namespace BotCord.Stripe

open Wallet

/-- The credit entries of a transaction. -/
def creditEntries (s : Store) (txId : TxId) : ℕ :=
  (s.entries.filter fun e => e.txId = txId ∧ e.direction = .credit).length

def StatusIs (s : Store) (topupId : String) (status : TopupStatus) : Prop :=
  (findTopup s topupId).map (·.status) = some status
deriving Decidable

/-- Between two stores the topup's wallet grew by so many times its amount, with as many credit entries. -/
structure Credited (start s : Store) (topup : TopupRequest) (times : ℕ) : Prop where
  available : s.available topup.key = start.available topup.key + times * topup.amountMinor
  entries : creditEntries s topup.txId = creditEntries start topup.txId + times

/-- The same topup at another time. -/
def Same (topup later : TopupRequest) : Prop :=
  later = { topup with status := later.status, externalRef := later.externalRef }

/-- The row object a session is about to complete has the status that the row has in the store. -/
def Phase.RowCurrent (s : Store) : Phase → Prop
  | .completing topup => StatusIs s topup.topupId topup.status
  | .called | .loaded _ | .binding _ | .funding _ | .opening _ | .funded _ _ | .answering _ | .answered _ | .failed => True

instance (s : Store) : DecidablePred (Phase.RowCurrent s) := fun _ => by
  unfold Phase.RowCurrent
  split <;> infer_instance

/-- The locking select of `complete_topup_request` reads the status that the session's row object already has. -/
def RowCurrent (d : State) : Action → Prop
  | .advance i _ => (d.phase i).RowCurrent (d.view i)
  | .crash _ => True

instance (d : State) : DecidablePred (RowCurrent d)
  | .advance i _ => inferInstanceAs (Decidable ((d.phase i).RowCurrent (d.view i)))
  | .crash _ => isTrue trivial

theorem Same.topupId_eq {topup later : TopupRequest} (h : Same topup later) : later.topupId = topup.topupId := by
  rw [h]

theorem Same.key_eq {topup later : TopupRequest} (h : Same topup later) : later.key = topup.key := by
  rw [h]
  rfl

/-! ### The statements of a session -/

theorem findTopup_update {s : Store} {f : TopupRequest → TopupRequest} {topupId : String}
    (hf : ∀ t, (f t).topupId = t.topupId) :
    findTopup { s with topups := Table.update (·.topupId = topupId) f s.topups } topupId =
      (findTopup s topupId).map f := by
  unfold findTopup
  rw [Table.find?_update fun t _ _ => by rw [hf]]
  cases h : s.topups.find? (·.topupId = topupId) with
  | none => rfl
  | some t => rw [Option.map_some, Option.map_some, if_pos (by simpa using List.find?_some h)]

theorem ids_update {rows : List TopupRequest} {f : TopupRequest → TopupRequest} {topupId : String}
    (hf : ∀ t, (f t).topupId = t.topupId) (hrows : (rows.map TopupRequest.topupId).Nodup) :
    ((Table.update (·.topupId = topupId) f rows).map TopupRequest.topupId).Nodup := by
  rwa [Table.map_update fun t _ _ => hf t]

section Invariant

variable (start : Store) (topup : TopupRequest)

/-- A store that credits the topup as often as it is completed. -/
structure Counted (s : Store) : Prop where
  ids : (s.topups.map TopupRequest.topupId).Nodup
  row : ∃ later, findTopup s topup.topupId = some later ∧ Same topup later
  credited : Credited start s topup (if StatusIs s topup.topupId .completed then 1 else 0)

variable {start topup} {s : Store}

theorem Counted.setExternalRef (h : Counted start topup s) (sessionId : String) :
    Counted start topup (setExternalRef topup.topupId sessionId s) ∧
      ∀ status, StatusIs (setExternalRef topup.topupId sessionId s) topup.topupId status ↔
        StatusIs s topup.topupId status := by
  have hfind : findTopup (Stripe.setExternalRef topup.topupId sessionId s) topup.topupId =
      (findTopup s topup.topupId).map fun t => { t with externalRef := some sessionId } :=
    findTopup_update fun _ => rfl
  have hstatus : ∀ status, StatusIs (Stripe.setExternalRef topup.topupId sessionId s) topup.topupId status ↔
      StatusIs s topup.topupId status := by
    intro status
    rw [StatusIs, hfind, Option.map_map]
    rfl
  refine ⟨⟨?_, ?_, ?_⟩, hstatus⟩
  · exact ids_update (fun _ => rfl) h.ids
  · obtain ⟨later, hlater, hsame⟩ := h.row
    exact ⟨_, by rw [hfind, hlater, Option.map_some], by rw [Same, hsame]⟩
  · simp only [hstatus]
    exact ⟨h.credited.available, h.credited.entries⟩

theorem Counted.addWallet (h : Counted start topup s) {ownerId : OwnerId} {assetCode : AssetCode}
    (hnone : s.findWallet (ownerId, assetCode) = none) :
    Counted start topup (s.addWallet { ownerId, assetCode }) := by
  have havailable : (s.addWallet { ownerId, assetCode }).available topup.key = s.available topup.key :=
    congrArg Ledger.Account.available (congrFun (Store.book_addWallet hnone) topup.key)
  exact ⟨h.ids, h.row, havailable.trans h.credited.available, h.credited.entries⟩

theorem Counted.completion (h : Counted start topup s) {later : TopupRequest} (hsame : Same topup later)
    (hpending : StatusIs s topup.topupId .pending) {wallet : WalletAccount}
    (hwallet : s.findWallet topup.key = some wallet) (entryId : String) :
    Counted start topup (completion later wallet entryId s) ∧
      StatusIs (completion later wallet entryId s) topup.topupId .completed := by
  have hid : later.topupId = topup.topupId := hsame.topupId_eq
  have hfind : findTopup (Stripe.completion later wallet entryId s) topup.topupId =
      (findTopup s topup.topupId).map fun t => { t with status := .completed } := by
    simp only [Stripe.completion, hid]
    exact findTopup_update fun _ => rfl
  obtain ⟨row, hrow, hrowsame⟩ := h.row
  have hcompleted : StatusIs (Stripe.completion later wallet entryId s) topup.topupId .completed := by
    rw [StatusIs, hfind, hrow]
    rfl
  have hbefore : Credited start s topup 0 := by
    have hnot : ¬ StatusIs s topup.topupId .completed := by
      rw [StatusIs, show (findTopup s topup.topupId).map (·.status) = some .pending from hpending]
      decide
    simpa only [if_neg hnot] using h.credited
  have hadjusted : (wallet.adjust later.amountMinor 0).key = topup.key :=
    (WalletAccount.key_adjust ..).trans (Store.key_of_findWallet hwallet)
  have hfound : (s.putWallet (wallet.adjust later.amountMinor 0)).findWallet topup.key =
      some (wallet.adjust later.amountMinor 0) :=
    hadjusted ▸ Store.findWallet_putWallet_same (hadjusted.symm ▸ hwallet)
  have hamount : later.amountMinor = topup.amountMinor := by rw [hsame]
  have htx : later.txId = topup.txId := by rw [hsame]
  refine ⟨⟨?_, ?_, ?_⟩, hcompleted⟩
  · exact ids_update (fun _ => rfl) h.ids
  · exact ⟨_, by rw [hfind, hrow, Option.map_some], by rw [Same, hrowsame]⟩
  · rw [if_pos hcompleted]
    constructor
    · have havailable := hbefore.available
      rw [Store.available_of_findWallet hwallet] at havailable
      have hafter : (Stripe.completion later wallet entryId s).available topup.key =
          (wallet.adjust later.amountMinor 0).availableBalanceMinor := Store.available_of_findWallet hfound
      rw [hafter, WalletAccount.adjust, hamount]
      push_cast at havailable ⊢
      omega
    · have hentries := hbefore.entries
      simp only [creditEntries, Stripe.completion, Store.addEntry, Store.setTransactionStatus, Store.setTopupStatus,
        Store.putWallet, htx, List.filter_append] at hentries ⊢
      simpa using hentries

def PhaseSound (topup : TopupRequest) (d : State) (i : ℕ) : Phase → Prop
  | .called | .failed => True
  | .loaded row => row.topupId = topup.topupId → Same topup row ∧ row.status = .pending
  | .binding row => Same topup row ∧ (row.status = .completed → StatusIs (d.view i) topup.topupId .completed)
  | .completing row => Same topup row ∧ row.status = .pending
  | .funding row | .opening row =>
    Same topup row ∧ d.held (.topup topup.topupId) = some i ∧ StatusIs (d.view i) topup.topupId .pending
  | .funded row wallet =>
    Same topup row ∧ d.held (.topup topup.topupId) = some i ∧ StatusIs (d.view i) topup.topupId .pending ∧
      (d.view i).findWallet topup.key = some wallet
  | .answering row =>
    row.topupId = topup.topupId → row.status = .completed → StatusIs (d.view i) topup.topupId .completed
  | .answered row =>
    row.topupId = topup.topupId → row.status = .completed → StatusIs d.committed topup.topupId .completed

variable (start topup)

structure Inv (d : State) : Prop where
  committed : Counted start topup d.committed
  view : ∀ i, Counted start topup (d.view i)
  /-- Only the holder of the row lock has written anything. -/
  quiet : ∀ i, d.held (.topup topup.topupId) ≠ some i → d.pending i = id
  mono : ∀ i, StatusIs d.committed topup.topupId .completed → StatusIs (d.view i) topup.topupId .completed
  phase : ∀ i, PhaseSound topup d i (d.phase i)

variable {start topup} {d : State} {i : ℕ}

variable {p : Phase}

theorem Inv.goto (h : Inv start topup d) (hp : PhaseSound topup d i p) : Inv start topup (d.goto i p) := by
  refine ⟨h.committed, h.view, h.quiet, h.mono, fun j => ?_⟩
  by_cases hj : j = i
  · subst hj
    rw [Sessions.goto_phase_self]
    exact hp
  · rw [Sessions.goto_phase_of_ne _ _ hj]
    exact h.phase j

variable {d' : State}

/-- What a session relies on survives where its lock and what it sees under the lock do, and where what was completed stays completed. -/
theorem PhaseSound.congr (h : PhaseSound topup d i p)
    (hheld : d.held (.topup topup.topupId) = some i →
      d'.held (.topup topup.topupId) = some i ∧ d'.view i = d.view i)
    (hview : StatusIs (d.view i) topup.topupId .completed → StatusIs (d'.view i) topup.topupId .completed)
    (hcommitted : StatusIs d.committed topup.topupId .completed → StatusIs d'.committed topup.topupId .completed) :
    PhaseSound topup d' i p := by
  cases p with
  | called => trivial
  | failed => trivial
  | loaded row => exact h
  | completing row => exact h
  | binding row => exact ⟨h.1, fun hdone => hview (h.2 hdone)⟩
  | funding row => exact ⟨h.1, (hheld h.2.1).1, (hheld h.2.1).2 ▸ h.2.2⟩
  | opening row => exact ⟨h.1, (hheld h.2.1).1, (hheld h.2.1).2 ▸ h.2.2⟩
  | funded row wallet => exact ⟨h.1, (hheld h.2.1).1, (hheld h.2.1).2 ▸ h.2.2⟩
  | answering row => exact fun hid hdone => hview (h hid hdone)
  | answered row => exact fun hid hdone => hcommitted (h hid hdone)

theorem PhaseSound.of_view (h : PhaseSound topup d i p)
    (hheld : d.held (.topup topup.topupId) = some i → d'.held (.topup topup.topupId) = some i)
    (hview : d'.view i = d.view i) (hcommitted : d'.committed = d.committed) : PhaseSound topup d' i p :=
  h.congr (fun hold => ⟨hheld hold, hview⟩) (fun hdone => hview ▸ hdone) fun hdone => hcommitted ▸ hdone

theorem Inv.lock (h : Inv start topup d) {row : Row} (hfree : d.Free i row) : Inv start topup (d.lock i row) := by
  have hkept : ∀ j, d.held (.topup topup.topupId) = some j → (d.lock i row).held (.topup topup.topupId) = some j := by
    intro j hj
    by_cases hrow : .topup topup.topupId = row
    · subst hrow
      rw [hfree.held_eq_self hj, Sessions.lock_held_self]
    · rw [Sessions.lock_held_of_ne _ _ hrow, hj]
  refine ⟨h.committed, h.view, fun j hj => h.quiet j fun hold => hj (hkept j hold), h.mono, fun j => ?_⟩
  exact (h.phase j).of_view (hkept j) rfl rfl

theorem Inv.write (h : Inv start topup d) {f : Store → Store}
    (hheld : d.held (.topup topup.topupId) = some i) (hcounted : Counted start topup (f (d.view i)))
    (hmono : StatusIs (d.view i) topup.topupId .completed → StatusIs (f (d.view i)) topup.topupId .completed)
    (hp : PhaseSound topup (d.write i f) i p) : Inv start topup ((d.write i f).goto i p) := by
  refine ⟨h.committed, fun j => ?_, fun j hj => ?_, fun j hdone => ?_, fun j => ?_⟩
  · by_cases hj : j = i
    · subst hj
      rw [Sessions.goto_view, Sessions.write_view_self]
      exact hcounted
    · rw [Sessions.goto_view, Sessions.write_view_of_ne _ _ hj]
      exact h.view j
  · have hne : j ≠ i := fun heq => hj (heq ▸ hheld)
    rw [Sessions.goto_pending, Sessions.write_pending_of_ne _ _ hne]
    exact h.quiet j hj
  · by_cases hj : j = i
    · subst hj
      rw [Sessions.goto_view, Sessions.write_view_self]
      exact hmono (h.mono j hdone)
    · rw [Sessions.goto_view, Sessions.write_view_of_ne _ _ hj]
      exact h.mono j hdone
  · by_cases hj : j = i
    · subst hj
      rw [Sessions.goto_phase_self]
      exact hp
    · rw [Sessions.goto_phase_of_ne _ _ hj]
      exact (h.phase j).of_view id (Sessions.write_view_of_ne _ _ hj) rfl

theorem Inv.fail (h : Inv start topup d) : Inv start topup (Stripe.fail d i) := by
  have hview : ∀ j, (Stripe.fail d i).view j = if j = i then d.committed else d.view j := by
    intro j
    rw [Stripe.fail, Sessions.goto_view]
    split
    · rename_i hj
      rw [hj, Sessions.rollback_view_self]
    · rename_i hj
      exact Sessions.rollback_view_of_ne _ hj
  refine ⟨h.committed, fun j => ?_, fun j hj => ?_, fun j hdone => ?_, fun j => ?_⟩
  · rw [hview]
    split
    · exact h.committed
    · exact h.view j
  · by_cases hji : j = i
    · rw [hji]
      exact Sessions.rollback_pending_self ..
    · refine (Sessions.rollback_pending_of_ne _ hji).trans (h.quiet j fun hold => hj ?_)
      exact (Sessions.rollback_held_eq_some _).mpr ⟨hold, hji⟩
  · rw [hview]
    split
    · exact hdone
    · exact h.mono j hdone
  · by_cases hj : j = i
    · subst hj
      rw [Stripe.fail, Sessions.goto_phase_self]
      trivial
    · rw [Stripe.fail, Sessions.goto_phase_of_ne _ _ hj]
      exact (h.phase j).of_view (fun hold => (Sessions.rollback_held_eq_some _).mpr ⟨hold, hj⟩)
        (Sessions.rollback_view_of_ne _ hj) rfl

/-- After a commit another session sees what it saw, if it holds the row, and what was committed, if it does not. -/
theorem Inv.commit_view (h : Inv start topup d) {j : ℕ} (hj : j ≠ i) :
    (d.held (.topup topup.topupId) = some j → d.view i = d.committed ∧ (d.commit i).view j = d.view j) ∧
      (d.held (.topup topup.topupId) ≠ some j → (d.commit i).view j = d.view i) := by
  rw [Sessions.commit_view_of_ne _ hj]
  constructor
  · intro hheld
    have hid : d.pending i = id := h.quiet i fun hi => hj (Option.some.inj (hheld.symm.trans hi))
    have hview : d.view i = d.committed := Sessions.view_of_pending_eq_id hid
    exact ⟨hview, by rw [hview]; rfl⟩
  · intro hheld
    rw [h.quiet j hheld, id]

variable {row : TopupRequest}

theorem Inv.commit (h : Inv start topup d) (hphase : d.phase i = .answering row) :
    Inv start topup ((d.commit i).goto i (.answered row)) := by
  have hmono : ∀ j, StatusIs (d.view i) topup.topupId .completed →
      StatusIs ((d.commit i).view j) topup.topupId .completed := by
    intro j hdone
    by_cases hj : j = i
    · rwa [hj, Sessions.commit_view_self]
    · by_cases hheld : d.held (.topup topup.topupId) = some j
      · obtain ⟨hview, hsame⟩ := (h.commit_view hj).1 hheld
        exact hsame ▸ h.mono j (hview ▸ hdone)
      · rwa [(h.commit_view hj).2 hheld]
  refine ⟨h.view i, fun j => ?_, fun j hj => ?_, hmono, fun j => ?_⟩
  · rw [Sessions.goto_view]
    by_cases hj : j = i
    · rw [hj, Sessions.commit_view_self]
      exact h.view i
    · by_cases hheld : d.held (.topup topup.topupId) = some j
      · rw [((h.commit_view hj).1 hheld).2]
        exact h.view j
      · rw [(h.commit_view hj).2 hheld]
        exact h.view i
  · by_cases hji : j = i
    · rw [hji]
      exact Sessions.commit_pending_self ..
    · refine (Sessions.commit_pending_of_ne _ hji).trans (h.quiet j fun hold => hj ?_)
      exact (Sessions.commit_held_eq_some _).mpr ⟨hold, hji⟩
  · by_cases hj : j = i
    · subst hj
      rw [Sessions.goto_phase_self]
      have hrow : PhaseSound topup d j (.answering row) := hphase ▸ h.phase j
      exact hrow
    · rw [Sessions.goto_phase_of_ne _ _ hj]
      refine (h.phase j).congr (fun hheld => ?_) (fun hdone => ?_) (fun hdone => h.mono i hdone)
      · exact ⟨(Sessions.commit_held_eq_some _).mpr ⟨hheld, hj⟩, ((h.commit_view hj).1 hheld).2⟩
      · by_cases hheld : d.held (.topup topup.topupId) = some j
        · exact ((h.commit_view hj).1 hheld).2 ▸ hdone
        · refine hmono j (h.mono i ?_)
          rwa [Sessions.view_of_pending_eq_id (h.quiet j hheld)] at hdone

/-! ### The steps of a session -/

variable {c : Checkout} {caller : ℕ → Caller}

theorem Inv.refuse (h : Inv start topup d)
    (hrow : row.topupId = topup.topupId → row.status = .completed → StatusIs (d.view i) topup.topupId .completed) :
    Inv start topup (Stripe.refuse caller d i row) := by
  unfold Stripe.refuse
  split
  · exact h.fail
  · exact h.goto hrow

theorem Inv.checkPending (h : Inv start topup d) (hsame : Same topup row)
    (hrow : row.status = .completed → StatusIs (d.view i) topup.topupId .completed) :
    Inv start topup (Stripe.checkPending c caller d i row) := by
  unfold Stripe.checkPending
  split
  · exact h.goto fun _ => hrow
  · split
    · exact h.refuse fun _ => hrow
    · rename_i hpending
      split
      · exact h.refuse fun _ => hrow
      · exact h.goto ⟨hsame, not_not.mp hpending⟩

theorem Inv.checkExternalRef (h : Inv start topup d) (hsame : Same topup row)
    (hrow : row.status = .completed → StatusIs (d.view i) topup.topupId .completed) :
    Inv start topup (Stripe.checkExternalRef c caller d i row) := by
  unfold Stripe.checkExternalRef
  split
  · exact h.goto ⟨hsame, hrow⟩
  · split
    · exact h.refuse fun _ => hrow
    · exact h.checkPending hsame hrow

theorem Counted.found {s : Store} (h : Counted start topup s)
    (hrow : findTopup s topup.topupId = some row) :
    Same topup row ∧ (row.status = .completed → StatusIs s topup.topupId .completed) := by
  obtain ⟨later, hlater, hsame⟩ := h.row
  obtain rfl := Option.some.inj (hlater.symm.trans hrow)
  exact ⟨hsame, fun hdone => by rw [StatusIs, hrow, Option.map_some, hdone]⟩

theorem Inv.selectTopup (h : Inv start topup d) (hc : c.topupId = topup.topupId) {loaded : Option TopupRequest}
    (hloaded : ∀ row, loaded = some row → Same topup row ∧ row.status = .pending) :
    Inv start topup (Stripe.selectTopup c caller d i loaded) := by
  unfold Stripe.selectTopup
  cases loaded with
  | some row =>
    obtain ⟨hsame, hpending⟩ := hloaded row rfl
    exact h.checkExternalRef hsame fun hdone => by rw [hpending] at hdone; cases hdone
  | none =>
    simp only [hc]
    cases hfind : findTopup (d.view i) topup.topupId with
    | none => exact h.fail
    | some row =>
      obtain ⟨hsame, hrow⟩ := (h.view i).found hfind
      exact h.checkExternalRef hsame hrow

theorem pollTopup_row {s : Store} (hids : (s.topups.map TopupRequest.topupId).Nodup)
    (hpoll : pollTopup s c = .ok (some row)) : findTopup s row.topupId = some row := by
  have hmem : row ∈ s.topups := by
    unfold pollTopup at hpoll
    split at hpoll
    · exact List.mem_of_find?_eq_some (Option.some.inj (congrArg _ (Except.ok.inj hpoll)))
    · rename_i found hfilter
      obtain rfl := Option.some.inj (Except.ok.inj hpoll)
      exact List.mem_of_mem_filter (hfilter ▸ List.mem_singleton_self _)
    · cases hpoll
  exact Table.find?_eq_some_of_mem hids hmem

theorem Inv.preload (h : Inv start topup d) (agentId : OwnerId) : Inv start topup (Stripe.preload c d i agentId) := by
  unfold Stripe.preload
  split
  · rename_i row hpoll
    have hrow : row.topupId = topup.topupId →
        Same topup row ∧ (row.status = .completed → StatusIs (d.view i) topup.topupId .completed) := by
      intro hid
      exact (h.view i).found (hid ▸ pollTopup_row (h.view i).ids hpoll)
    split
    · exact h.fail
    · split
      · rename_i hpending
        exact h.goto fun hid => ⟨(hrow hid).1, hpending⟩
      · exact h.goto fun hid => (hrow hid).2
  · exact h.fail

theorem Inv.complete (h : Inv start topup d) {wallet : WalletAccount}
    (hp : PhaseSound topup d i (.funded row wallet)) (entryId : String) :
    Inv start topup (Stripe.complete d i row wallet entryId) := by
  obtain ⟨hsame, hheld, hpending, hwallet⟩ := hp
  obtain ⟨hcounted, hdone⟩ := (h.view i).completion hsame hpending hwallet entryId
  unfold Stripe.complete
  split
  · refine h.write hheld hcounted (fun _ => hdone) fun _ _ => ?_
    rw [Sessions.write_view_self]
    exact hdone
  · exact h.fail

theorem topup_held_lock_wallet {topupId : String} {key : WalletKey} (h : d.held (.topup topupId) = some i) :
    (d.lock i (.wallet key)).held (.topup topupId) = some i := by
  rw [Sessions.lock_held_of_ne _ _ (by simp), h]

theorem Inv.advance (h : Inv start topup d) (hc : c.topupId = topup.topupId) {entryId : String}
    (hcurrent : RowCurrent d (.advance i entryId)) (hstep : Stripe.advance c caller d i entryId = some d') :
    Inv start topup d' := by
  have hphase := h.phase i
  unfold Stripe.advance at hstep
  cases hp : d.phase i with
  | called =>
    rw [hp] at hstep
    cases hcaller : caller i with
    | webhook =>
      simp only [hcaller, Option.some.injEq] at hstep
      exact hstep ▸ h.selectTopup hc (by simp)
    | poll agentId =>
      simp only [hcaller, Option.some.injEq] at hstep
      exact hstep ▸ h.preload agentId
  | loaded row =>
    simp only [hp, Option.some.injEq] at hstep hphase
    refine hstep ▸ h.selectTopup hc fun row' hrow' => ?_
    obtain ⟨hid, hsome⟩ := Option.ite_none_right_eq_some.mp hrow'
    obtain rfl := Option.some.inj hsome
    exact hphase (hid.trans hc)
  | binding row =>
    simp only [hp] at hstep hphase
    obtain ⟨hfree, hstep⟩ := Option.ite_none_right_eq_some.mp hstep
    obtain ⟨hsame, hrow⟩ := hphase
    rw [hsame.topupId_eq] at hfree hstep
    have hlocked := h.lock hfree
    obtain ⟨hcounted, hstatus⟩ := (hlocked.view i).setExternalRef c.sessionId
    have hwritten := hlocked.write (f := setExternalRef topup.topupId c.sessionId) (p := .binding row)
      (Sessions.lock_held_self ..) hcounted (hstatus .completed).mpr
      ⟨hsame, fun hdone => by rw [Sessions.write_view_self]; exact (hstatus .completed).mpr (hrow hdone)⟩
    rw [Sessions.goto_eq_self _ (by simpa using hp)] at hwritten
    refine Option.some.inj hstep ▸ hwritten.checkPending (by rw [Same, hsame]) fun hdone => ?_
    rw [Sessions.write_view_self]
    exact (hstatus .completed).mpr (hrow hdone)
  | completing row =>
    simp only [hp] at hstep hphase
    obtain ⟨hfree, hstep⟩ := Option.ite_none_right_eq_some.mp hstep
    obtain ⟨hsame, hpending⟩ := hphase
    have hview : StatusIs (d.view i) topup.topupId .pending := by
      rw [RowCurrent, hp] at hcurrent
      exact hpending ▸ hsame.topupId_eq ▸ hcurrent
    have hrefuse : Inv start topup (Stripe.refuse caller d i row) :=
      h.refuse fun _ hdone => by rw [hpending] at hdone; cases hdone
    rw [hsame.topupId_eq] at hfree hstep
    cases hfind : findTopup (d.view i) topup.topupId with
    | none =>
      simp only [hfind, Option.some.injEq] at hstep
      exact hstep ▸ hrefuse
    | some found =>
      simp only [hfind, if_pos hpending, Option.some.injEq] at hstep
      exact hstep ▸ (h.lock hfree).goto ⟨hsame, Sessions.lock_held_self .., hview⟩
  | funding row =>
    simp only [hp] at hstep hphase
    rw [hphase.1.key_eq] at hstep
    rcases selectWallet_cases hstep with ⟨-, rfl⟩ | ⟨wallet, hwallet, hfree, rfl⟩
    · exact h.goto hphase
    · exact (h.lock hfree).goto ⟨hphase.1, topup_held_lock_wallet hphase.2.1, hphase.2.2, hwallet⟩
  | opening row =>
    simp only [hp] at hstep hphase
    obtain ⟨hsame, hheld, hpending⟩ := hphase
    rw [hsame.key_eq] at hstep
    obtain ⟨hfree, ⟨hnone, rfl⟩ | ⟨-, rfl⟩⟩ := insertWallet_cases hstep
    · have hlocked : (d.lock i (.wallet topup.key)).held (.topup topup.topupId) = some i :=
        topup_held_lock_wallet hheld
      refine (h.lock hfree).write hlocked (((h.lock hfree).view i).addWallet hnone) id ⟨hsame, hlocked, ?_, ?_⟩
      · rw [Sessions.write_view_self]
        exact hpending
      · rw [Sessions.write_view_self, Store.findWallet_addWallet, Sessions.lock_view, hnone, Option.none_or]
        exact if_pos rfl
    · exact h.fail
  | funded row wallet =>
    simp only [hp, Option.some.injEq] at hstep
    exact hstep ▸ h.complete (hp ▸ hphase) entryId
  | answering row =>
    simp only [hp, Option.some.injEq] at hstep
    exact hstep ▸ h.commit hp
  | answered row => simp [hp] at hstep
  | failed => simp [hp] at hstep

theorem Inv.step (h : Inv start topup d) (hc : c.topupId = topup.topupId) {a : Action}
    (hcurrent : RowCurrent d a) (hstep : (fulfillment c caller).step d a = some d') : Inv start topup d' := by
  cases a with
  | advance i entryId => exact h.advance hc hcurrent hstep
  | crash i =>
    change crash d i = some d' at hstep
    unfold crash at hstep
    split at hstep
    · cases hstep
    · cases hstep
    · exact Option.some.inj hstep ▸ h.fail

theorem Inv.initial {s : Store} (hs : s.Integral) (hrow : findTopup s topup.topupId = some topup)
    (hpending : topup.status = .pending) : Inv s topup (Sessions.start s .called) := by
  have hnot : ¬ StatusIs s topup.topupId .completed := by
    rw [StatusIs, hrow, Option.map_some, hpending]
    decide
  have hcounted : Counted s topup s := by
    refine ⟨hs.topup_ids, ⟨topup, hrow, rfl⟩, ?_⟩
    rw [if_neg hnot]
    exact ⟨by simp, rfl⟩
  exact ⟨hcounted, fun _ => hcounted, fun _ _ => rfl, fun _ h => h, fun _ => trivial⟩

end Invariant

/-- While no session takes the row lock with an outdated row in hand, the topup is credited exactly as often as it is completed, zero times or once, and once for good when some session has answered that it is completed. -/
theorem credited_once (c : Checkout) (caller : ℕ → Caller) (actions : List Action) {s : Store} {topup : TopupRequest}
    {d : State} (hs : s.Integral) (hrow : findTopup s c.topupId = some topup) (hpending : topup.status = .pending)
    (hcurrent : (fulfillment c caller).Meets RowCurrent (Sessions.start s .called) actions)
    (hrun : (fulfillment c caller).run (Sessions.start s .called) actions = some d) :
    Credited s d.committed topup (if StatusIs d.committed c.topupId .completed then 1 else 0) ∧
      ∀ i answer, d.phase i = .answered answer → answer.topupId = c.topupId → answer.status = .completed →
        StatusIs d.committed c.topupId .completed := by
  have hc : c.topupId = topup.topupId := (by simpa using List.find?_some hrow : topup.topupId = c.topupId).symm
  rw [hc] at hrow ⊢
  have hinv : Inv s topup d := (fulfillment c caller).run_invariant_of_meets
    (fun d a d' h hguard hstep => h.step hc hguard hstep) (Inv.initial hs hrow hpending) hcurrent hrun
  refine ⟨hinv.committed.credited, fun i answer hphase => ?_⟩
  have hanswer := hinv.phase i
  rw [hphase] at hanswer
  exact hanswer

def checkout : Checkout := { sessionId := "cs_1", topupId := "tu_1", coinAmountMinor := some 100 }

/-- A topup of 100 with its checkout session bound, as `create_checkout_session` leaves it. -/
def paid : Store :=
  setExternalRef "tu_1" "cs_1"
    ((Operation.createTopupRequest { ownerId := "ag_1", amountMinor := 100, channel := "stripe" }
      { txId := "tx_1", requestId := "tu_1" }).apply (.empty ["ag_1"] []))

def paidTopup : TopupRequest :=
  { topupId := "tu_1", ownerId := "ag_1", assetCode := "COIN", amountMinor := 100, channel := "stripe"
    externalRef := some "cs_1", txId := "tx_1" }

/-- The statements of one session from the row lock to the commit, with the wallet row there or to be inserted. -/
def finish (i : ℕ) (entryId : String) (opens : Bool) : List Action :=
  .advance i "" :: (if opens then [.advance i ""] else []) ++ [.advance i "", .advance i entryId, .advance i ""]

def webhookThenPoll (i : ℕ) : Caller := if i = 0 then .webhook else .poll "ag_1"

/-- The delivery completes the topup, and the poll finds it completed. -/
def inTurn : List Action := [.advance 0 ""] ++ finish 0 "we_1" true ++ [.advance 1 "", .advance 1 ""]

theorem credited_once_in_turn :
    ∃ d, (fulfillment checkout webhookThenPoll).run (Sessions.start paid .called) inTurn = some d ∧
      d.committed.available ("ag_1", "COIN") = 100 ∧
      Credited paid d.committed paidTopup (if StatusIs d.committed checkout.topupId .completed then 1 else 0) ∧
      ∀ i answer, d.phase i = .answered answer → answer.topupId = checkout.topupId → answer.status = .completed →
        StatusIs d.committed checkout.topupId .completed :=
  ⟨_, rfl, by decide +kernel,
    credited_once checkout webhookThenPoll inTurn (by decide +kernel) (by decide +kernel) rfl (by decide +kernel) rfl⟩

/-- Two deliveries that both read the topup before either completes it: 200 for a topup of 100. -/
theorem credited_twice :
    ((fulfillment checkout fun _ => .webhook).run (Sessions.start paid .called)
        ([.advance 0 "", .advance 1 ""] ++ finish 0 "we_1" true ++ finish 1 "we_2" false)).map
      (fun d => (d.committed.available ("ag_1", "COIN") - paid.available ("ag_1", "COIN"),
        creditEntries d.committed "tx_1")) = some (200, 2) := by
  decide +kernel

end BotCord.Stripe
