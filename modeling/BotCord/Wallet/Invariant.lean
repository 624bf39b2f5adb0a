import BotCord.Wallet.Refinement

/-!
# The wallet ledger invariant

From empty tables every sequence of operations keeps the books. The invariant is that the store's book is one the account machine reaches; what it says of a wallet row, its entries and its withdrawals is read off the machine's soundness at the end.
-/

namespace BotCord.Wallet

open Transaction Ledger

structure Invariant (s : Store) : Prop where
  integral : s.Integral
  positive : s.RequestsPositive
  reached : ∃ moves, (books WalletKey).run (fun _ => Account.zero) moves = some s.book

variable {s : Store}

theorem Invariant.sound (h : Invariant s) : s.book.Sound := by
  obtain ⟨moves, hrun⟩ := h.reached
  exact run_sound hrun

theorem empty_integral (agents humans : List OwnerId) : (Store.empty agents humans).Integral :=
  ⟨List.nodup_nil, nofun, nofun, List.nodup_nil, .nil, List.nodup_nil, List.nodup_nil, List.nodup_nil⟩

theorem Invariant.empty (agents humans : List OwnerId) : Invariant (Store.empty agents humans) :=
  ⟨empty_integral agents humans, ⟨nofun, nofun⟩, [], rfl⟩

theorem Operation.call_effect (hs : Invariant s) (op : Operation) {u : Unit} {τ : Session Store}
    (h : exec op.call ⟨s, s⟩ = (.ok u, τ)) : Effect s τ.view := by
  cases op <;> obtain ⟨a, ha⟩ := exec_void_ok.mp h
  case createGrant r d => exact createGrant_effect (hs.sound _) ha
  case createTransfer r d => exact createTransfer_effect hs.sound ha
  case createTopupRequest r d => exact createTopupRequest_effect ha
  case completeTopupRequest topupId d => exact completeTopupRequest_effect hs.sound hs.positive ha
  case failTopupRequest topupId => exact failTopupRequest_effect ha
  case createWithdrawalRequest r d => exact createWithdrawalRequest_effect ha
  case approveWithdrawalRequest withdrawalId => exact approveWithdrawalRequest_effect hs.integral ha
  case rejectWithdrawalRequest withdrawalId => exact rejectWithdrawalRequest_effect hs.integral hs.positive ha
  case completeWithdrawalRequest withdrawalId d => exact completeWithdrawalRequest_effect hs.integral hs.positive ha
  case cancelWithdrawalRequest withdrawalId ownerId =>
    exact cancelWithdrawalRequest_effect hs.integral hs.positive ha

/-- A committed call keeps the invariant: its effect is moves of the machine, and the commit's flush checked the constraints. -/
theorem Invariant.apply (hs : Invariant s) (op : Operation) : Invariant (op.apply s) := by
  rcases atomically_cases (do op.call; flushStore) s with hsame | ⟨u, c, hcommit⟩
  · rw [Operation.apply, hsame]
    exact hs
  · obtain ⟨u, τ, hcall, hflush⟩ := exec_bind_ok.mp hcommit
    obtain ⟨hconstraints, hτ⟩ := exec_flush_ok.mp hflush
    have heffect := op.call_effect hs hcall
    have hview : op.apply s = τ.view := by rw [Operation.apply, ← hτ]
    obtain ⟨before, hbefore⟩ := hs.reached
    obtain ⟨moves, hmoves⟩ := heffect.moves
    rw [hview]
    refine ⟨Store.integral_of_constraints hconstraints, heffect.positive hs.positive, before ++ moves, ?_⟩
    rw [System.run_append, hbefore, Option.bind_some, hmoves]

theorem run_invariant {agents humans : List OwnerId} {ops : List Operation}
    (hrun : service.run (Store.empty agents humans) ops = some s) : Invariant s := by
  refine service.run_invariant (fun s op t hs hstep => ?_) (Invariant.empty agents humans) hrun
  obtain rfl : op.apply s = t := Option.some.inj hstep
  exact hs.apply op

namespace Store

def walletEntries (s : Store) (w : WalletAccount) : List WalletEntry := s.entries.filter (·.key = w.key)

def openWithdrawals (s : Store) (w : WalletAccount) : List WithdrawalRequest :=
  s.withdrawals.filter fun x => x.key = w.key ∧ x.Open

def credits (entries : List WalletEntry) : ℤ :=
  Table.total (·.amountMinor) (entries.filter (·.direction = .credit))

def debits (entries : List WalletEntry) : ℤ :=
  Table.total (·.amountMinor) (entries.filter (·.direction = .debit))

/-- The books of one wallet, in terms of its rows. -/
structure Balanced (s : Store) (w : WalletAccount) : Prop where
  available_nonneg : 0 ≤ w.availableBalanceMinor
  locked_nonneg : 0 ≤ w.lockedBalanceMinor
  locked_eq_open : w.lockedBalanceMinor = Table.total WithdrawalRequest.total (s.openWithdrawals w)
  balance_eq_entries : w.availableBalanceMinor + w.lockedBalanceMinor =
    credits (s.walletEntries w) - debits (s.walletEntries w)
  running : ∀ k (hk : k < (s.walletEntries w).length),
    (s.walletEntries w)[k].balanceAfterMinor = Table.total WalletEntry.signed ((s.walletEntries w).take (k + 1))

/-- What all wallets of one owner hold locked. -/
def ownerLocked (s : Store) (ownerId : OwnerId) : ℤ :=
  Table.total (·.lockedBalanceMinor) (s.wallets.filter (·.ownerId = ownerId))

def ownerOpen (s : Store) (ownerId : OwnerId) : ℤ :=
  Table.total WithdrawalRequest.total (s.withdrawals.filter fun x => x.ownerId = ownerId ∧ x.Open)

theorem total_signed (entries : List WalletEntry) :
    Table.total WalletEntry.signed entries = credits entries - debits entries := by
  unfold credits debits
  rw [Table.total_filter, Table.total_filter]
  induction entries with
  | nil => rfl
  | cons e rest ih =>
    rw [Table.total_cons, Table.total_cons, Table.total_cons, ih]
    unfold WalletEntry.signed
    cases e.direction <;> simp <;> ring

theorem history_eq (s : Store) (w : WalletAccount) : s.history w.key = (s.walletEntries w).map WalletEntry.posting := rfl

theorem posted_map_posting (entries : List WalletEntry) :
    posted (entries.map WalletEntry.posting) = Table.total WalletEntry.signed entries := by
  rw [posted, List.map_map]
  rfl

theorem held_eq (s : Store) (w : WalletAccount) :
    s.held w.key = Table.total WithdrawalRequest.total (s.openWithdrawals w) := by
  rw [openWithdrawals, Table.total_filter]
  rfl

theorem balanced_of_invariant (hs : Invariant s) {w : WalletAccount} (hw : w ∈ s.wallets) :
    s.Balanced w := by
  have hsound : (s.book w.key).Sound := hs.sound w.key
  have hfind := findWallet_of_mem hs.integral hw
  have havailable : (s.book w.key).available = w.availableBalanceMinor := available_of_findWallet hfind
  have hlocked : (s.book w.key).locked = w.lockedBalanceMinor := locked_of_findWallet hfind
  refine ⟨havailable ▸ hsound.available_nonneg, hlocked ▸ hsound.locked_nonneg, ?_, ?_, ?_⟩
  · rw [← hlocked, hsound.locked_eq_held, ← held_eq]
    rfl
  · rw [← total_signed, ← posted_map_posting, ← history_eq, ← havailable, ← hlocked]
    exact hsound.balance_eq_posted
  · intro k hk
    have hk' : k < (s.history w.key).length := by rwa [history_eq, List.length_map]
    have hrunning := hsound.running k hk'
    rw [← posted_map_posting, List.map_take, ← history_eq]
    refine Eq.trans ?_ hrunning
    simp only [book, history_eq, List.getElem_map, WalletEntry.posting]

theorem wallet_of_open (hs : Invariant s) {x : WithdrawalRequest} (hx : x ∈ s.withdrawals)
    (hopen : x.Open) (hpos : x.total ≠ 0) : x.key ∈ s.wallets.map WalletAccount.key := by
  obtain ⟨hnonneg, hheld⟩ := total_le_held hs.positive hx hopen
  have hlocked := (hs.sound x.key).locked_eq_held
  cases hfind : s.findWallet x.key with
  | none =>
    have hzero : (s.book x.key).locked = 0 := by simp [book, locked, hfind]
    omega
  | some w =>
    rw [← key_of_findWallet hfind]
    exact List.mem_map_of_mem (List.mem_of_find?_eq_some hfind)

theorem ownerLocked_eq_ownerOpen (hs : Invariant s) (ownerId : OwnerId) :
    s.ownerLocked ownerId = s.ownerOpen ownerId := by
  let weight : WithdrawalRequest → ℤ := fun x => if x.ownerId = ownerId ∧ x.Open then x.total else 0
  have hcover : ∀ x ∈ s.withdrawals, weight x ≠ 0 → x.key ∈ s.wallets.map WalletAccount.key := by
    intro x hx hne
    obtain ⟨⟨-, hopen⟩, hpos⟩ := ite_ne_right_iff.mp hne
    exact wallet_of_open hs hx hopen hpos
  have hwallet : ∀ w ∈ s.wallets, (if w.ownerId = ownerId then w.lockedBalanceMinor else 0) =
      Table.total (fun x => if x.key = w.key then weight x else 0) s.withdrawals := by
    intro w hw
    rw [(balanced_of_invariant hs hw).locked_eq_open, openWithdrawals, Table.total_filter]
    by_cases howner : w.ownerId = ownerId
    · rw [if_pos howner]
      refine Table.total_congr fun x _ => ?_
      by_cases hkey : x.key = w.key
      · have hx : x.ownerId = ownerId := (Prod.mk.inj hkey).1.trans howner
        simp [weight, hkey, hx]
      · simp [hkey]
    · rw [if_neg howner]
      refine (Table.total_eq_zero fun x _ => ?_).symm
      by_cases hkey : x.key = w.key
      · have hx : x.ownerId ≠ ownerId := fun h => howner ((Prod.mk.inj hkey).1 ▸ h)
        simp [weight, hx]
      · simp [hkey]
  rw [ownerLocked, ownerOpen, Table.total_filter, Table.total_filter, ← Table.total_by_key hs.integral.wallet_keys hcover,
    Table.total_congr hwallet, Table.total, Table.total, List.map_map]
  rfl

end Store

/-- Whatever sequence of operations ran, every wallet's balances are its open withdrawals and its entries, and each entry recorded the balance it left. -/
theorem reachable_balanced (agents humans : List OwnerId) (ops : List Operation) {s : Store}
    (hrun : service.run (Store.empty agents humans) ops = some s) :
    (∀ w ∈ s.wallets, s.Balanced w) ∧ ∀ ownerId, s.ownerLocked ownerId = s.ownerOpen ownerId := by
  have hs := run_invariant hrun
  exact ⟨fun w hw => Store.balanced_of_invariant hs hw, Store.ownerLocked_eq_ownerOpen hs⟩

/-- A grant of 100, a transfer of 30, a withdrawal of 20 with a fee of 1 that is paid out and one of 10 that is pending. -/
def sampleRun : List Operation :=
  [.createGrant { ownerId := "ag_1", amountMinor := 100 } { txId := "tx_1", firstEntryId := "we_1" },
    .createTransfer { fromOwnerId := "ag_1", toOwnerId := "hu_1", amountMinor := 30 }
      { txId := "tx_2", firstEntryId := "we_2", secondEntryId := "we_3" },
    .createWithdrawalRequest { ownerId := "ag_1", amountMinor := 20, feeMinor := 1 }
      { txId := "tx_3", requestId := "wd_1" },
    .approveWithdrawalRequest "wd_1",
    .completeWithdrawalRequest "wd_1" { txId := "", firstEntryId := "we_4" },
    .createWithdrawalRequest { ownerId := "ag_1", amountMinor := 10 } { txId := "tx_4", requestId := "wd_2" }]

theorem reachable_balanced_sample : ∃ s, service.run (Store.empty ["ag_1"] ["hu_1"]) sampleRun = some s ∧
    s.wallets.map (fun w => (w.availableBalanceMinor, w.lockedBalanceMinor)) = [(39, 10), (30, 0)] ∧
    (∀ w ∈ s.wallets, s.Balanced w) ∧ ∀ ownerId, s.ownerLocked ownerId = s.ownerOpen ownerId :=
  ⟨_, rfl, by decide +kernel, reachable_balanced ["ag_1"] ["hu_1"] sampleRun rfl⟩

theorem Invariant.moves (hs : Invariant s) (op : Operation) : Moves s (op.apply s) := by
  rcases atomically_cases (do op.call; flushStore) s with hsame | ⟨u, c, hcommit⟩
  · rw [Operation.apply, hsame]
    exact .of_book rfl
  · obtain ⟨u, τ, hcall, hflush⟩ := exec_bind_ok.mp hcommit
    obtain ⟨-, hτ⟩ := exec_flush_ok.mp hflush
    have hview : op.apply s = τ.view := by rw [Operation.apply, ← hτ]
    exact hview ▸ (op.call_effect hs hcall).moves

/-- Whatever operations follow, the entries of a wallet stay what they are, and new ones come after them. -/
theorem entries_append_only {agents humans : List OwnerId} {before after : List Operation} {s t : Store}
    (hbefore : service.run (Store.empty agents humans) before = some s) (hafter : service.run s after = some t)
    (key : WalletKey) : s.history key <+: t.history key := by
  refine (service.run_invariant (P := fun u => Invariant u ∧ s.history key <+: u.history key) (fun u op v hu hstep => ?_)
    ⟨run_invariant hbefore, List.prefix_refl _⟩ hafter).2
  obtain rfl : op.apply u = v := Option.some.inj hstep
  refine ⟨hu.1.apply op, hu.2.trans ?_⟩
  obtain ⟨moves, hmoves⟩ := hu.1.moves op
  exact (books WalletKey).run_invariant (P := fun b => (u.book key).history <+: (b key).history)
    (fun _ _ _ hkept hstep => hkept.trans (step_history hstep key)) (List.prefix_refl _) hmoves

theorem entries_append_only_sample : ∃ s t, service.run (Store.empty ["ag_1"] ["hu_1"]) (sampleRun.take 2) = some s ∧
    service.run s (sampleRun.drop 2) = some t ∧ (s.history ("ag_1", "COIN")).length = 2 ∧
    s.history ("ag_1", "COIN") <+: t.history ("ag_1", "COIN") :=
  ⟨_, _, rfl, rfl, by decide +kernel,
    @entries_append_only ["ag_1"] ["hu_1"] (sampleRun.take 2) (sampleRun.drop 2) _ _ rfl rfl _⟩

end BotCord.Wallet
