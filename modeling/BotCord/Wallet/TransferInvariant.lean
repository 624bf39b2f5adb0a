import BotCord.Wallet.TransferRows

/-!
# Interleaved transfers keep the books

The invariant of the transfer protocol: sessions write only rows they hold, what is committed moved every balance by the transfers it contains, and nobody sees two transfers under one key. Each phase says which rows a session holds and what it knows of them.
-/

namespace BotCord.Wallet.Transfers

open Transaction

section Invariant

variable (request : ℕ → TransferRequest) (draw : ℕ → Draw) (start : Store)

/-- The checks of a request, which depend on nothing that a transfer changes. -/
def Valid (s : Store) (r : TransferRequest) : Prop := answer (validateTransfer r) s = .ok ()

/-- In every store that agrees with the session's rows its writes move balances by the effects of the transfers they add, but for an amount that is still to be moved. -/
def Owes (d : State) (i : ℕ) (amount : WalletKey → ℤ) : Prop :=
  ∀ s, Sessions.Agrees row d i s → ∀ key, untransferred (d.pending i s) key = untransferred s key - amount key

def Holds (d : State) (i : ℕ) (key : WalletKey) (w : WalletAccount) : Prop :=
  d.held (.wallet key) = some i ∧ (d.view i).findWallet key = some w

/-- The transfer a session has inserted is the only one under its key. -/
def Inserted (d : State) (i : ℕ) : Prop :=
  ∀ key, (request i).idempotencyKey = some key →
    d.held (.key (request i).fromOwnerId key) = some i ∧ underKey d.committed (request i).fromOwnerId key = [] ∧
      (request i).row (draw i) ∈ underKey (d.view i) (request i).fromOwnerId key

def PhaseSound (d : State) (i : ℕ) : Phase → Prop
  | .called | .validating | .reloading | .raised _ | .crashed => d.pending i = id
  | .lockingFirst | .openingFirst => d.pending i = id ∧ Valid start (request i)
  | .lockingSecond w | .openingSecond w =>
    Owes d i 0 ∧ Valid start (request i) ∧ Holds d i (firstKey (request i)) w
  | .inserting w w' =>
    Owes d i 0 ∧ Valid start (request i) ∧ Holds d i (firstKey (request i)) w ∧ Holds d i (secondKey (request i)) w'
  | .inserted w w' =>
    Owes d i (effect ((request i).row (draw i))) ∧ (Valid start (request i) ∧ FitsBigInteger (request i).amountMinor) ∧
      (Holds d i (firstKey (request i)) w ∧ Holds d i (secondKey (request i)) w') ∧ Inserted request draw d i
  | .returning tx =>
    Owes d i 0 ∧ ∀ key, (request i).idempotencyKey = some key →
      tx ∈ underKey (d.view i) (request i).fromOwnerId key
  | .returned tx =>
    d.pending i = id ∧ ∀ key, (request i).idempotencyKey = some key →
      tx ∈ underKey d.committed (request i).fromOwnerId key

structure Inv (d : State) : Prop where
  disciplined : d.Disciplined row
  balance : ∀ key, untransferred d.committed key = untransferred start key
  /-- No session sees two transfers under one key. -/
  single : ∀ i initiator key, (underKey (d.view i) initiator key).length ≤ 1
  /-- Transactions are only added. -/
  grows : ∀ i s initiator key, (underKey s initiator key).Sublist (underKey (d.pending i s) initiator key)
  owners : d.committed.agents = start.agents ∧ d.committed.humans = start.humans
  keepsOwners : ∀ i s, (d.pending i s).agents = s.agents ∧ (d.pending i s).humans = s.humans
  keyHolder : ∀ i initiator key, d.held (.key initiator key) = some i →
    (request i).fromOwnerId = initiator ∧ (request i).idempotencyKey = some key
  phase : ∀ i, PhaseSound request draw start d i (d.phase i)

variable {request draw start} {d d' : State} {i j : ℕ} {p : Phase} {k : Row} {w w' : WalletAccount}

theorem Owes.congr {amount : WalletKey → ℤ} (h : Owes d i amount) (hpending : d'.pending i = d.pending i)
    (hagrees : ∀ s, Sessions.Agrees row d' i s → Sessions.Agrees row d i s) : Owes d' i amount := by
  intro s hs key
  rw [hpending]
  exact h s (hagrees s hs) key

theorem Owes.of_pending (h : d.pending i = id) : Owes d i 0 := by
  intro s _ key
  rw [h, id, Pi.zero_apply, sub_zero]

theorem Holds.congr {key : WalletKey} {w : WalletAccount} (h : Holds d i key w)
    (hheld : ∀ k, d.held k = some i → d'.held k = some i)
    (hview : ∀ k, d.held k = some i → row k (d'.view i) = row k (d.view i)) : Holds d' i key w :=
  ⟨hheld _ h.1, (hview _ h.1).trans h.2⟩

/-- What a session relies on survives a step that leaves its writes, its locks and the rows under them alone. -/
theorem PhaseSound.congr (h : PhaseSound request draw start d i p) (hpending : d'.pending i = d.pending i)
    (hheld : ∀ k, d.held k = some i → d'.held k = some i)
    (hagrees : ∀ s, Sessions.Agrees row d' i s → Sessions.Agrees row d i s)
    (hview : ∀ k, d.held k = some i → row k (d'.view i) = row k (d.view i))
    (hcommitted : ∀ k, d.held k = some i → row k d'.committed = row k d.committed)
    (hgrown : ∀ initiator key, underKey (d.view i) initiator key ⊆ underKey (d'.view i) initiator key)
    (hgrown' : ∀ initiator key, underKey d.committed initiator key ⊆ underKey d'.committed initiator key) :
    PhaseSound request draw start d' i p := by
  cases p with
  | called => exact hpending.trans h
  | validating => exact hpending.trans h
  | reloading => exact hpending.trans h
  | raised e => exact hpending.trans h
  | crashed => exact hpending.trans h
  | lockingFirst => exact ⟨hpending.trans h.1, h.2⟩
  | openingFirst => exact ⟨hpending.trans h.1, h.2⟩
  | lockingSecond w => exact ⟨h.1.congr hpending hagrees, h.2.1, h.2.2.congr hheld hview⟩
  | openingSecond w => exact ⟨h.1.congr hpending hagrees, h.2.1, h.2.2.congr hheld hview⟩
  | inserting w w' =>
    exact ⟨h.1.congr hpending hagrees, h.2.1, h.2.2.1.congr hheld hview, h.2.2.2.congr hheld hview⟩
  | inserted w w' =>
    obtain ⟨howes, hvalid, ⟨hfirst, hsecond⟩, hinserted⟩ := h
    refine ⟨howes.congr hpending hagrees, hvalid, ⟨hfirst.congr hheld hview, hsecond.congr hheld hview⟩, ?_⟩
    intro key hkey
    obtain ⟨hold, hnone, hmem⟩ := hinserted key hkey
    exact ⟨hheld _ hold, (hcommitted _ hold).trans hnone, hgrown _ _ hmem⟩
  | returning tx => exact ⟨h.1.congr hpending hagrees, fun key hkey => hgrown _ _ (h.2 key hkey)⟩
  | returned tx => exact ⟨hpending.trans h.1, fun key hkey => hgrown' _ _ (h.2 key hkey)⟩

theorem PhaseSound.of_committed (h : PhaseSound request draw start d i p) (hpending : d'.pending i = d.pending i)
    (hheld : ∀ k, d.held k = some i → d'.held k = some i) (hcommitted : d'.committed = d.committed) :
    PhaseSound request draw start d' i p := by
  have hview : d'.view i = d.view i := by rw [Sessions.view, Sessions.view, hpending, hcommitted]
  refine h.congr hpending hheld (fun s hs k hk => ?_) (fun _ _ => by rw [hview]) (fun _ _ => by rw [hcommitted])
    (fun _ _ => by rw [hview]; exact List.Subset.refl _) fun _ _ => by rw [hcommitted]; exact List.Subset.refl _
  rw [hs k (hheld k hk), hcommitted]

theorem Inv.goto (h : Inv request draw start d) (hp : PhaseSound request draw start d i p) :
    Inv request draw start (d.goto i p) := by
  refine ⟨h.disciplined.goto p, h.balance, h.single, h.grows, h.owners, h.keepsOwners, h.keyHolder, fun j => ?_⟩
  by_cases hj : j = i
  · subst hj
    rw [Sessions.goto_phase_self]
    exact hp
  · rw [Sessions.goto_phase_of_ne _ _ hj]
    exact h.phase j

theorem Inv.lock (h : Inv request draw start d) (hfree : d.Free i k)
    (hkey : ∀ initiator key, k = .key initiator key →
      (request i).fromOwnerId = initiator ∧ (request i).idempotencyKey = some key) :
    Inv request draw start (d.lock i k) := by
  refine ⟨h.disciplined.lock hfree, h.balance, h.single, h.grows, h.owners, h.keepsOwners, ?_, fun j => ?_⟩
  · intro j initiator key hold
    by_cases hk : .key initiator key = k
    · rw [← hk, Sessions.lock_held_self, Option.some.injEq] at hold
      exact hold ▸ hkey initiator key hk.symm
    · rw [Sessions.lock_held_of_ne _ _ hk] at hold
      exact h.keyHolder j initiator key hold
  · exact (h.phase j).of_committed rfl (fun _ hold => Sessions.held_lock hfree hold) rfl

theorem Inv.lockWallet (h : Inv request draw start d) {key : WalletKey} (hfree : d.Free i (.wallet key)) :
    Inv request draw start (d.lock i (.wallet key)) :=
  h.lock hfree fun _ _ heq => by cases heq

theorem Inv.single_committed (h : Inv request draw start d) (initiator : OwnerId) (key : String) :
    (underKey d.committed initiator key).length ≤ 1 :=
  (h.grows 0 d.committed initiator key).length_le.trans (h.single 0 initiator key)

theorem Inv.rollback (h : Inv request draw start d)
    (hp : ∀ d' : State, d'.pending i = id → PhaseSound request draw start d' i p) :
    Inv request draw start ((d.rollback i).goto i p) := by
  have hkept : ∀ j, j ≠ i → PhaseSound request draw start (d.rollback i) j (d.phase j) := by
    intro j hj
    exact (h.phase j).of_committed (Sessions.rollback_pending_of_ne d hj)
      (fun k hold => (Sessions.rollback_held_eq_some d).mpr ⟨hold, hj⟩) rfl
  refine ⟨h.disciplined.rollback.goto p, h.balance, fun j initiator key => ?_, fun j s initiator key => ?_, h.owners,
    fun j s => ?_, fun j initiator key hold => ?_, fun j => ?_⟩
  · rw [Sessions.goto_view]
    by_cases hj : j = i
    · rw [hj, Sessions.rollback_view_self]
      exact h.single_committed initiator key
    · rw [Sessions.rollback_view_of_ne _ hj]
      exact h.single j initiator key
  · rw [Sessions.goto_pending]
    by_cases hj : j = i
    · rw [hj, Sessions.rollback_pending_self]
      exact List.Sublist.refl _
    · rw [Sessions.rollback_pending_of_ne _ hj]
      exact h.grows j s initiator key
  · rw [Sessions.goto_pending]
    by_cases hj : j = i
    · rw [hj, Sessions.rollback_pending_self]
      exact ⟨rfl, rfl⟩
    · rw [Sessions.rollback_pending_of_ne _ hj]
      exact h.keepsOwners j s
  · exact h.keyHolder j initiator key ((Sessions.rollback_held_eq_some d).mp hold).1
  · by_cases hj : j = i
    · subst hj
      rw [Sessions.goto_phase_self]
      exact hp _ (Sessions.rollback_pending_self ..)
    · rw [Sessions.goto_phase_of_ne _ _ hj]
      exact hkept j hj

theorem Inv.write (h : Inv request draw start d) {f : Store → Store} (hf : Sessions.RowWise row f)
    (hkeeps : ∀ k, d.held k ≠ some i → Sessions.Keeps row k f)
    (hsingle : ∀ initiator key, (underKey (f (d.view i)) initiator key).length ≤ 1)
    (hgrows : ∀ s initiator key, (underKey s initiator key).Sublist (underKey (f s) initiator key))
    (howners : ∀ s, (f s).agents = s.agents ∧ (f s).humans = s.humans)
    (hp : PhaseSound request draw start (d.write i f) i p) : Inv request draw start ((d.write i f).goto i p) := by
  have hpending : (d.write i f).pending i = f ∘ d.pending i := by simp [Sessions.write]
  refine ⟨(h.disciplined.write hf hkeeps).goto p, h.balance, fun j initiator key => ?_, fun j s initiator key => ?_,
    h.owners, fun j s => ?_, h.keyHolder, fun j => ?_⟩
  · rw [Sessions.goto_view]
    by_cases hj : j = i
    · subst hj
      rw [Sessions.write_view_self]
      exact hsingle initiator key
    · rw [Sessions.write_view_of_ne _ _ hj]
      exact h.single j initiator key
  · rw [Sessions.goto_pending]
    by_cases hj : j = i
    · subst hj
      rw [hpending]
      exact (h.grows j s initiator key).trans (hgrows _ initiator key)
    · rw [Sessions.write_pending_of_ne _ _ hj]
      exact h.grows j s initiator key
  · rw [Sessions.goto_pending]
    by_cases hj : j = i
    · subst hj
      rw [hpending]
      exact ⟨(howners _).1.trans (h.keepsOwners j s).1, (howners _).2.trans (h.keepsOwners j s).2⟩
    · rw [Sessions.write_pending_of_ne _ _ hj]
      exact h.keepsOwners j s
  · by_cases hj : j = i
    · subst hj
      rw [Sessions.goto_phase_self]
      exact hp
    · rw [Sessions.goto_phase_of_ne _ _ hj]
      exact (h.phase j).of_committed (Sessions.write_pending_of_ne _ _ hj) (fun _ hold => hold) rfl

variable {tx : WalletTransaction} {key : String}

theorem Inv.commit (h : Inv request draw start d) (hphase : d.phase i = .returning tx) :
    Inv request draw start ((d.commit i).goto i (.returned tx)) := by
  obtain ⟨howes, hmem⟩ : PhaseSound request draw start d i (.returning tx) := hphase ▸ h.phase i
  have hgrown : ∀ initiator key, (underKey d.committed initiator key).Sublist (underKey (d.view i) initiator key) :=
    fun initiator key => h.grows i d.committed initiator key
  have hview : ∀ j initiator key, j ≠ i → underKey ((d.commit i).view j) initiator key = underKey (d.view j) initiator key ∨
      underKey ((d.commit i).view j) initiator key = underKey (d.view i) initiator key ∧
        underKey (d.view j) initiator key = underKey d.committed initiator key := by
    intro j initiator key hj
    by_cases hheld : d.held (.key initiator key) = some j
    · exact .inl ((h.disciplined.commit_view hj).1 hheld)
    · exact .inr ⟨(h.disciplined.commit_view hj).2 hheld, h.disciplined.view_eq hheld⟩
  refine ⟨h.disciplined.commit.goto _, fun key => ?_, fun j initiator key => ?_, fun j s initiator key => ?_, ?_,
    fun j s => ?_, fun j initiator key hold => ?_, fun j => ?_⟩
  · refine (howes d.committed Sessions.Agrees.committed key).trans ?_
    rw [Pi.zero_apply, sub_zero, h.balance key]
  · rw [Sessions.goto_view]
    by_cases hj : j = i
    · rw [hj, Sessions.commit_view_self]
      exact h.single i initiator key
    · rcases hview j initiator key hj with hsame | ⟨hsame, -⟩
      · rw [hsame]
        exact h.single j initiator key
      · rw [hsame]
        exact h.single i initiator key
  · rw [Sessions.goto_pending]
    by_cases hj : j = i
    · rw [hj, Sessions.commit_pending_self]
      exact List.Sublist.refl _
    · rw [Sessions.commit_pending_of_ne _ hj]
      exact h.grows j s initiator key
  · obtain ⟨hagents, hhumans⟩ := h.keepsOwners i d.committed
    exact ⟨hagents.trans h.owners.1, hhumans.trans h.owners.2⟩
  · rw [Sessions.goto_pending]
    by_cases hj : j = i
    · rw [hj, Sessions.commit_pending_self]
      exact ⟨rfl, rfl⟩
    · rw [Sessions.commit_pending_of_ne _ hj]
      exact h.keepsOwners j s
  · exact h.keyHolder j initiator key ((Sessions.commit_held_eq_some d).mp hold).1
  · by_cases hj : j = i
    · subst hj
      rw [Sessions.goto_phase_self]
      exact ⟨Sessions.commit_pending_self .., hmem⟩
    · rw [Sessions.goto_phase_of_ne _ _ hj]
      refine (h.phase j).congr (Sessions.commit_pending_of_ne d hj)
        (fun k hold => (Sessions.commit_held_eq_some d).mpr ⟨hold, hj⟩)
        (fun s hs => (h.disciplined.agrees_commit hj).mp hs) (fun k hold => (h.disciplined.commit_view hj).1 hold)
        (fun k hold => h.disciplined.commit_committed hj hold) (fun initiator key => ?_)
        fun initiator key => (hgrown initiator key).subset
      rcases hview j initiator key hj with hsame | ⟨hsame, hcommitted⟩
      · rw [Sessions.goto_view, hsame]
        exact List.Subset.refl _
      · rw [Sessions.goto_view, hsame, hcommitted]
        exact (hgrown initiator key).subset

variable {s : Store}

theorem answer_ok {α : Type} {x : Tx α} {a : α} :
    answer x s = .ok a ↔ ∃ τ, exec x ⟨s, s⟩ = (.ok a, τ) := by
  unfold answer
  rcases exec x ⟨s, s⟩ with ⟨r, τ⟩
  simp

variable {owner : OwnerId}

theorem keyedTransaction_mem {τ : Session Store}
    (h : exec (keyedTransaction (some key) .transfer owner) ⟨s, s⟩ = (.ok (some tx), τ)) : tx ∈ underKey s owner key := by
  rw [keyedTransaction, exec_view_bind] at h
  rw [underKey, (scalarOneOrNone_ok h).2 tx rfl]
  exact List.mem_singleton_self tx

theorem existingTransaction_mem
    (h : answer (existingTransaction (some key) .transfer owner) s = .ok (some tx)) : tx ∈ underKey s owner key := by
  obtain ⟨τ, h⟩ := answer_ok.mp h
  unfold existingTransaction at h
  split at h
  · exact keyedTransaction_mem h
  · exact absurd (exec_pure_ok.mp h).1 nofun

theorem reloadExisting_mem (h : answer (reloadExisting (some key) .transfer owner) s = .ok tx) : tx ∈ underKey s owner key := by
  obtain ⟨τ, h⟩ := answer_ok.mp h
  obtain ⟨r, m, hr, h⟩ := exec_bind_ok.mp h
  cases r with
  | none => simp at h
  | some row =>
    obtain ⟨rfl, -⟩ := exec_pure_ok.mp h
    exact keyedTransaction_mem hr

variable {r : TransferRequest}

theorem valid_iff :
    Valid s r ↔ r.fromOwnerId ≠ r.toOwnerId ∧ 0 < r.amountMinor ∧ OwnerExists s r.fromOwnerId ∧
      OwnerExists s r.toOwnerId := by
  rw [Valid, answer_ok]
  simp only [validateTransfer_ok, exists_and_left, exists_eq, and_true]

theorem Valid.congr {s s' : Store} (h : Valid s r) (hagents : s'.agents = s.agents)
    (hhumans : s'.humans = s.humans) : Valid s' r := by
  rw [valid_iff] at h ⊢
  unfold OwnerExists at h ⊢
  rwa [hagents, hhumans]

theorem Inv.view_owners (h : Inv request draw start d) (i : ℕ) :
    (d.view i).agents = start.agents ∧ (d.view i).humans = start.humans := by
  obtain ⟨hagents, hhumans⟩ := h.keepsOwners i d.committed
  exact ⟨hagents.trans h.owners.1, hhumans.trans h.owners.2⟩

theorem Inv.raise (h : Inv request draw start d) (e : Error) : Inv request draw start (raise d i e) :=
  h.rollback fun _ hid => hid

theorem Inv.lookup (h : Inv request draw start d) (hid : d.pending i = id) :
    Inv request draw start (lookup request d i) := by
  unfold Transfers.lookup
  split
  · rename_i tx hanswer
    refine h.goto ⟨.of_pending hid, fun key hkey => ?_⟩
    rw [hkey] at hanswer
    exact existingTransaction_mem hanswer
  · exact h.goto hid
  · exact h.raise _

theorem Inv.validate (h : Inv request draw start d) (hid : d.pending i = id) :
    Inv request draw start (validate request d i) := by
  unfold Transfers.validate
  split
  · rename_i hanswer
    obtain ⟨hagents, hhumans⟩ := h.view_owners i
    exact h.goto ⟨hid, Valid.congr hanswer hagents.symm hhumans.symm⟩
  · exact h.raise _

theorem Inv.reload (h : Inv request draw start d) (hid : d.pending i = id) :
    Inv request draw start (reload request d i) := by
  unfold Transfers.reload
  split
  · rename_i tx hanswer
    refine h.goto ⟨.of_pending hid, fun key hkey => ?_⟩
    rw [hkey] at hanswer
    exact reloadExisting_mem hanswer
  · exact h.raise _

/-- A store that agrees with the rows held after one more lock agrees with those held before. -/
theorem agrees_of_lock (hfree : d.Free i k) (hs : Sessions.Agrees row (d.lock i k) i s) :
    Sessions.Agrees row d i s :=
  fun k' hold => hs k' (Sessions.held_lock hfree hold)

section Wallets

variable {key key' : WalletKey} {w : WalletAccount}

theorem Owes.lock {amount : WalletKey → ℤ} (h : Owes d i amount) {k : Row} (hfree : d.Free i k) :
    Owes (d.lock i k) i amount :=
  h.congr rfl fun _ hs => agrees_of_lock hfree hs

theorem Holds.lock (h : Holds d i key w) {k : Row} (hfree : d.Free i k) : Holds (d.lock i k) i key w :=
  ⟨Sessions.held_lock hfree h.1, h.2⟩

theorem Holds.of_lock (hw : (d.view i).findWallet key = some w) : Holds (d.lock i (.wallet key)) i key w :=
  ⟨Sessions.lock_held_self .., hw⟩

/-- The new row of a wallet, once it is locked. -/
def opened (d : State) (i : ℕ) (key : WalletKey) : State :=
  (d.lock i (.wallet key)).write i (·.addWallet (newWallet key))

theorem opened_pending : (opened d i key).pending i = (·.addWallet (newWallet key)) ∘ d.pending i := by
  simp [opened, Sessions.write]

theorem opened_view : (opened d i key).view i = (d.view i).addWallet (newWallet key) := Sessions.write_view_self ..

theorem Owes.opened (hdisciplined : d.Disciplined row) (h : Owes d i 0) (hfree : d.Free i (.wallet key))
    (hnone : (d.view i).findWallet key = none) : Owes (Transfers.opened d i key) i 0 := by
  intro s hs k
  have hrow : row (.wallet key) s = row (.wallet key) d.committed := hs (.wallet key) (Sessions.lock_held_self ..)
  have hmissing : (d.pending i s).findWallet key = none :=
    (hdisciplined.rowwise i (.wallet key) _ _ hrow).trans hnone
  rw [opened_pending, Function.comp_apply, untransferred_addWallet hmissing]
  exact h s (agrees_of_lock hfree hs) k

theorem Holds.opened (h : Holds d i key w) (hfree : d.Free i (.wallet key')) : Holds (Transfers.opened d i key') i key w := by
  refine ⟨Sessions.held_lock hfree h.1, ?_⟩
  rw [opened_view, Store.findWallet_addWallet, h.2, Option.some_or]

theorem Holds.of_opened (hnone : (d.view i).findWallet key = none) : Holds (Transfers.opened d i key) i key (newWallet key) := by
  refine ⟨Sessions.lock_held_self .., ?_⟩
  rw [opened_view, Store.findWallet_addWallet, hnone, Option.none_or]
  exact if_pos rfl

theorem Inv.opened (h : Inv request draw start d) (hfree : d.Free i (.wallet key))
    (hp : PhaseSound request draw start (Transfers.opened d i key) i p) :
    Inv request draw start ((Transfers.opened d i key).goto i p) := by
  refine (h.lockWallet hfree).write (addWallet_rowWise _) (fun k hk => addWallet_keeps fun heq => hk ?_)
    (h.single i) (fun _ _ _ => List.Sublist.refl _) (fun _ => ⟨rfl, rfl⟩) hp
  rw [heq]
  exact Sessions.lock_held_self ..

end Wallets

theorem Inv.lockIndex (h : Inv request draw start d) (hfree : indexFree request d i) :
    Inv request draw start (lockIndex request d i) := by
  unfold Transfers.lockIndex
  split
  · exact h
  · rename_i key hkey
    refine h.lock (hfree key hkey) fun initiator key' heq => ?_
    obtain ⟨rfl, rfl⟩ := Row.key.inj heq
    exact ⟨rfl, hkey⟩

theorem held_lockIndex (hfree : indexFree request d i) {k : Row} (hold : d.held k = some i) :
    (lockIndex request d i).held k = some i := by
  unfold lockIndex
  split
  · exact hold
  · rename_i key hkey
    exact Sessions.held_lock (hfree key hkey) hold

theorem lockIndex_held {key : String} (hkey : (request i).idempotencyKey = some key) :
    (lockIndex request d i).held (.key (request i).fromOwnerId key) = some i := by
  unfold lockIndex
  rw [hkey]
  exact Sessions.lock_held_self ..

theorem lockIndex_pending : (lockIndex request d i).pending = d.pending := by
  unfold lockIndex
  split <;> rfl

theorem lockIndex_committed : (lockIndex request d i).committed = d.committed := by
  unfold lockIndex
  split <;> rfl

theorem lockIndex_view : (lockIndex request d i).view i = d.view i := by
  rw [Sessions.view, Sessions.view, lockIndex_pending, lockIndex_committed]

theorem underKey_of_not_conflicts {d : Draw} {key : String}
    (hnot : ¬ Conflicts s (r.row d)) (hkey : r.idempotencyKey = some key) : underKey s r.fromOwnerId key = [] := by
  refine List.eq_nil_iff_forall_not_mem.mpr fun t ht => ?_
  obtain ⟨hmem, hmatch⟩ := List.mem_filter.mp ht
  obtain ⟨htKey, htType, htOwner⟩ := of_decide_eq_true hmatch
  refine hnot ⟨t, hmem, .inl ⟨by rw [htKey]; rfl, by rw [htOwner]; rfl, htType, htOwner, htKey.trans hkey.symm⟩⟩

theorem underKey_row (s : Store) (r : TransferRequest) (d : Draw) (initiator : OwnerId) (key : String) :
    underKey (s.addTransaction (r.row d)) initiator key = underKey s initiator key ++
      if r.idempotencyKey = some key ∧ r.fromOwnerId = initiator then [r.row d] else [] := by
  rw [underKey_addTransaction]
  simp [TransferRequest.row]

theorem Inv.insert (h : Inv request draw start d) {w w' : WalletAccount}
    (hp : PhaseSound request draw start d i (.inserting w w')) (hstep : insert request draw d i w w' = some d') :
    Inv request draw start d' := by
  obtain ⟨howes, hvalid, hfirst, hsecond⟩ := hp
  unfold Transfers.insert at hstep
  simp only at hstep
  split at hstep
  · exact Option.some.inj hstep ▸ h.raise _
  · split at hstep
    · exact Option.some.inj hstep ▸ h.raise _
    · rename_i hfits
      obtain ⟨hfree, hstep⟩ := Option.ite_none_right_eq_some.mp hstep
      split at hstep
      · exact Option.some.inj hstep ▸ h.rollback fun _ hid => hid
      · rename_i hnot
        have hrow : Sessions.RowWise row (·.addTransaction ((request i).row (draw i))) := addTransaction_rowWise _
        refine Option.some.inj hstep ▸ (h.lockIndex hfree).write hrow (fun k hk s => ?_) (fun initiator key => ?_)
          (fun s initiator key => ?_) (fun _ => ⟨rfl, rfl⟩) ?_
        · cases k with
          | wallet key => rfl
          | key initiator key =>
            refine (underKey_row s _ _ initiator key).trans ?_
            rw [if_neg fun ⟨hkey, howner⟩ => hk (howner ▸ lockIndex_held hkey), List.append_nil]
            rfl
        · rw [lockIndex_view, underKey_row]
          split
          · rename_i hmatch
            rw [← hmatch.2, underKey_of_not_conflicts hnot hmatch.1]
            rfl
          · rw [List.append_nil]
            exact h.single i initiator key
        · rw [underKey_row]
          exact List.sublist_append_left _ _
        · have hpending : ((Transfers.lockIndex request d i).write i (·.addTransaction ((request i).row (draw i)))).pending i =
              (·.addTransaction ((request i).row (draw i))) ∘ d.pending i := by
            simp [Sessions.write, lockIndex_pending]
          have hview : ((Transfers.lockIndex request d i).write i (·.addTransaction ((request i).row (draw i)))).view i =
              (d.view i).addTransaction ((request i).row (draw i)) := by
            rw [Sessions.write_view_self, lockIndex_view]
          refine ⟨fun s hs key => ?_, ⟨hvalid, not_not.mp hfits⟩, ⟨⟨?_, ?_⟩, ?_, ?_⟩, fun key hkey => ⟨?_, ?_, ?_⟩⟩
          · have hagrees : Sessions.Agrees row d i s := by
              intro k hold
              rw [hs k (held_lockIndex hfree hold), Sessions.write_committed, lockIndex_committed]
            rw [hpending, Function.comp_apply, untransferred_addTransaction, howes s hagrees, Pi.zero_apply, sub_zero]
          · exact held_lockIndex hfree hfirst.1
          · rw [hview]
            exact hfirst.2
          · exact held_lockIndex hfree hsecond.1
          · rw [hview]
            exact hsecond.2
          · exact lockIndex_held hkey
          · have hnone := underKey_of_not_conflicts hnot hkey
            have hgrown := h.grows i d.committed (request i).fromOwnerId key
            rw [← Sessions.view, hnone] at hgrown
            rw [Sessions.write_committed, lockIndex_committed]
            exact List.sublist_nil.mp hgrown
          · rw [hview, underKey_row, if_pos ⟨hkey, rfl⟩]
            exact List.mem_append_right _ (List.mem_singleton_self _)

theorem found_sender {w w' : WalletAccount}
    (hfirst : s.findWallet (firstKey r) = some w) (hsecond : s.findWallet (secondKey r) = some w') :
    s.findWallet (r.fromOwnerId, r.assetCode) = some (senderOf r w w') := by
  unfold firstKey at hfirst
  unfold secondKey at hsecond
  unfold senderOf
  split at hfirst <;> simp_all

theorem found_receiver {w w' : WalletAccount}
    (hfirst : s.findWallet (firstKey r) = some w) (hsecond : s.findWallet (secondKey r) = some w') :
    s.findWallet (r.toOwnerId, r.assetCode) = some (receiverOf r w w') := by
  unfold firstKey at hfirst
  unfold secondKey at hsecond
  unfold receiverOf
  split at hfirst <;> simp_all

theorem sender_key (r : TransferRequest) :
    (r.fromOwnerId, r.assetCode) = firstKey r ∨ (r.fromOwnerId, r.assetCode) = secondKey r := by
  unfold firstKey secondKey
  split
  · exact .inr rfl
  · exact .inl rfl

theorem receiver_key (r : TransferRequest) :
    (r.toOwnerId, r.assetCode) = firstKey r ∨ (r.toOwnerId, r.assetCode) = secondKey r := by
  unfold firstKey secondKey
  split
  · exact .inl rfl
  · exact .inr rfl

theorem Inv.settle (h : Inv request draw start d) {w w' : WalletAccount}
    (hp : PhaseSound request draw start d i (.inserted w w')) :
    Inv request draw start (settle request draw d i w w') := by
  obtain ⟨howes, ⟨hvalid, -⟩, ⟨hfirst, hsecond⟩, hinserted⟩ := hp
  have hheld : ∀ key, key = firstKey (request i) ∨ key = secondKey (request i) → d.held (.wallet key) = some i := by
    rintro key (rfl | rfl)
    · exact hfirst.1
    · exact hsecond.1
  have hsenderKey := Store.key_of_findWallet (found_sender hfirst.2 hsecond.2)
  have hreceiverKey := Store.key_of_findWallet (found_receiver hfirst.2 hsecond.2)
  unfold Transfers.settle
  simp only
  split
  · refine h.write (transferred_rowWise _ _ _ _) (fun k hk => transferred_keeps _ (fun heq => hk ?_) fun heq => hk ?_)
      (h.single i) (fun _ _ _ => List.Sublist.refl _) (fun _ => ⟨rfl, rfl⟩) ⟨fun s hs key => ?_, fun key hkey => ?_⟩
    · rw [heq, hsenderKey]
      exact hheld _ (sender_key _)
    · rw [heq, hreceiverKey]
      exact hheld _ (receiver_key _)
    · have hfirst' := (h.disciplined.view_of_agrees hs hfirst.1).trans hfirst.2
      have hsecond' := (h.disciplined.view_of_agrees hs hsecond.1).trans hsecond.2
      have hmoved := untransferred_transferred (draw i) (found_sender hfirst' hsecond') (found_receiver hfirst' hsecond')
        (valid_iff.mp hvalid).1 key
      have hpending := howes s hs key
      simp only [Sessions.write, Function.update_self, Function.comp_apply, Pi.zero_apply, sub_zero]
      omega
    · rw [Sessions.write_view_self]
      exact (hinserted key hkey).2.2
  · exact h.raise _

theorem Inv.step (h : Inv request draw start d) {a : Action}
    (hstep : (transfers request draw).step d a = some d') : Inv request draw start d' := by
  cases a with
  | crash i =>
    change crash d i = some d' at hstep
    unfold crash at hstep
    split at hstep
    · cases hstep
    · cases hstep
    · cases hstep
    · exact Option.some.inj hstep ▸ h.rollback fun _ hid => hid
  | advance i =>
    have hphase := h.phase i
    change advance request draw d i = some d' at hstep
    unfold advance at hstep
    cases hp : d.phase i with
    | called =>
      simp only [hp] at hstep hphase
      exact Option.some.inj hstep ▸ h.lookup hphase
    | validating =>
      simp only [hp] at hstep hphase
      exact Option.some.inj hstep ▸ h.validate hphase
    | lockingFirst =>
      simp only [hp] at hstep hphase
      obtain ⟨hid, hvalid⟩ := hphase
      rcases selectWallet_cases hstep with ⟨-, rfl⟩ | ⟨w, hw, hfree, rfl⟩
      · exact h.goto ⟨hid, hvalid⟩
      · exact (h.lockWallet hfree).goto ⟨(Owes.of_pending hid).lock hfree, hvalid, .of_lock hw⟩
    | openingFirst =>
      simp only [hp] at hstep hphase
      obtain ⟨hid, hvalid⟩ := hphase
      obtain ⟨hfree, ⟨hnone, rfl⟩ | ⟨-, rfl⟩⟩ := insertWallet_cases hstep
      · exact h.opened hfree
          ⟨(Owes.of_pending hid).opened h.disciplined hfree hnone, hvalid, .of_opened hnone⟩
      · exact h.rollback fun _ hid => hid
    | lockingSecond w =>
      simp only [hp] at hstep hphase
      obtain ⟨howes, hvalid, hfirst⟩ := hphase
      rcases selectWallet_cases hstep with ⟨-, rfl⟩ | ⟨w', hw', hfree, rfl⟩
      · exact h.goto ⟨howes, hvalid, hfirst⟩
      · exact (h.lockWallet hfree).goto ⟨howes.lock hfree, hvalid, hfirst.lock hfree, .of_lock hw'⟩
    | openingSecond w =>
      simp only [hp] at hstep hphase
      obtain ⟨howes, hvalid, hfirst⟩ := hphase
      obtain ⟨hfree, ⟨hnone, rfl⟩ | ⟨-, rfl⟩⟩ := insertWallet_cases hstep
      · exact h.opened hfree
          ⟨howes.opened h.disciplined hfree hnone, hvalid, hfirst.opened hfree, .of_opened hnone⟩
      · exact h.rollback fun _ hid => hid
    | inserting w w' =>
      simp only [hp] at hstep hphase
      exact h.insert hphase hstep
    | reloading =>
      simp only [hp] at hstep hphase
      exact Option.some.inj hstep ▸ h.reload hphase
    | inserted w w' =>
      simp only [hp] at hstep hphase
      exact Option.some.inj hstep ▸ h.settle hphase
    | returning tx =>
      simp only [hp] at hstep
      exact Option.some.inj hstep ▸ h.commit hp
    | returned tx => simp [hp] at hstep
    | raised e => simp [hp] at hstep
    | crashed => simp [hp] at hstep

theorem underKey_length (hs : s.Integral) (initiator : OwnerId) (key : String) :
    (underKey s initiator key).length ≤ 1 := by
  have hpairwise : (underKey s initiator key).Pairwise fun left right => ¬ left.Clash right := hs.idempotency.filter _
  have hmatch : ∀ t ∈ underKey s initiator key, t.idempotencyKey = some key ∧ t.type = .transfer ∧
      t.initiatorOwnerId = some initiator := fun t ht => of_decide_eq_true (List.mem_filter.mp ht).2
  match hrows : underKey s initiator key with
  | [] => simp
  | [_] => simp
  | left :: right :: rest =>
    rw [hrows] at hpairwise hmatch
    obtain ⟨hkey, htype, howner⟩ := hmatch left (by simp)
    obtain ⟨hkey', htype', howner'⟩ := hmatch right (by simp)
    have hclash : left.Clash right :=
      ⟨by rw [hkey]; rfl, by rw [howner]; rfl, htype.trans htype'.symm, howner.trans howner'.symm,
        hkey.trans hkey'.symm⟩
    exact absurd hclash (List.rel_of_pairwise_cons hpairwise (by simp))

theorem Inv.initial (hs : start.Integral) : Inv request draw start (Sessions.start start Phase.called) := by
  refine ⟨.start _ _, fun _ => rfl, fun i initiator key => ?_, fun _ _ _ _ => List.Sublist.refl _, ⟨rfl, rfl⟩,
    fun _ _ => ⟨rfl, rfl⟩, nofun, fun _ => rfl⟩
  exact underKey_length hs initiator key

end Invariant

end BotCord.Wallet.Transfers
