import BotCord.Foundation.Text
import BotCord.Subscriptions.Invariant

/-!
# Billing keeps the charges paid

The due subscriptions are billed one after the other in one transaction. The condition on the keys is about the store before the first of them, so each billing has to leave it true of the others: what a billing writes is under its own subscription's keys, and the keys of two subscriptions are different texts.
-/

namespace BotCord.Subscriptions

open Transaction
open Wallet (TxId WalletTransaction TransferRequest Given keyedRows)

/-- The key is one that the billing of the subscription makes for some cycle. -/
def BillingKey (subscriptionId : SubscriptionId) (key : Option String) : Prop :=
  ∃ time : DateTime, key = some ("subscription:charge:" ++ subscriptionId ++ ":" ++ time.isoformat)

theorem billingKey_billingTransfer (r : AgentSubscription) :
    BillingKey r.subscriptionId (billingTransfer r).idempotencyKey := ⟨r.currentPeriodEnd, rfl⟩

theorem BillingKey.inj {left right : SubscriptionId} {key : Option String} (h : BillingKey left key)
    (h' : BillingKey right key) : left = right := by
  obtain ⟨time, rfl⟩ := h
  obtain ⟨time', hkeys⟩ := h'
  have htexts := congrArg String.toList (Option.some.inj hkeys)
  simp only [String.toList_append, show (":" : String).toList = [':'] from rfl, List.append_assoc,
    List.singleton_append, List.append_cancel_left_eq] at htexts
  have hcounts : time.isoformat.toList.count ':' = time'.isoformat.toList.count ':' := by
    rw [DateTime.count_colon_isoformat, DateTime.count_colon_isoformat]
  exact String.toList_inj.mp (Text.append_mark_inj htexts hcounts).1

/-- Between two stores the billing of one subscription wrote, and nothing else did. -/
structure Billed (subscriptionId : SubscriptionId) (s v : Store) : Prop where
  rooms : v.rooms = s.rooms
  subscriptions : ∀ other ≠ subscriptionId, v.findSubscription other = s.findSubscription other
  attempts : ∀ other ≠ subscriptionId, ∀ key, v.findAttempt (other, key) = s.findAttempt (other, key)
  rows : s.wallet.transactions ⊆ v.wallet.transactions
  newRows : ∀ t ∈ v.wallet.transactions, t ∈ s.wallet.transactions ∨ BillingKey subscriptionId t.idempotencyKey
  newCharges : ∀ c ∈ v.charges, c ∈ s.charges ∨
    ∃ t ∈ v.wallet.transactions, t.txId = c.txId ∧ BillingKey subscriptionId t.idempotencyKey

namespace Billed

variable {subscriptionId : SubscriptionId} {s v u : Store}

theorem refl (subscriptionId : SubscriptionId) (s : Store) : Billed subscriptionId s s :=
  ⟨rfl, fun _ _ => rfl, fun _ _ _ => rfl, fun _ ht => ht, fun _ => .inl, fun _ => .inl⟩

theorem trans (h : Billed subscriptionId s v) (h' : Billed subscriptionId v u) : Billed subscriptionId s u := by
  refine ⟨h'.rooms.trans h.rooms, fun other hother => ?_, fun other hother key => ?_, fun _ ht => h'.rows (h.rows ht),
    fun t ht => ?_, fun c hc => ?_⟩
  · exact (h'.subscriptions other hother).trans (h.subscriptions other hother)
  · exact (h'.attempts other hother key).trans (h.attempts other hother key)
  · exact (h'.newRows t ht).elim (h.newRows t) .inr
  · rcases h'.newCharges c hc with hold | hnew
    · exact (h.newCharges c hold).imp id fun ⟨t, ht, hrow⟩ => ⟨t, h'.rows ht, hrow⟩
    · exact .inr hnew

theorem onlyMembers (h : OnlyMembers s v) : Billed subscriptionId s v := by
  obtain ⟨_, rfl⟩ := h
  exact ⟨rfl, fun _ _ => rfl, fun _ _ _ => rfl, fun _ ht => ht, fun _ => .inl, fun _ => .inl⟩

theorem withWallet {w : Wallet.Store} (hrows : w.transactions = s.wallet.transactions) :
    Billed subscriptionId s (s.withWallet w) :=
  ⟨rfl, fun _ _ => rfl, fun _ _ _ => rfl, fun _ ht => hrows.symm ▸ ht, fun _ ht => .inl (hrows ▸ ht), fun _ => .inl⟩

theorem moved {r : TransferRequest} {d : Wallet.Draw} (h : Moved r d s v)
    (hkey : BillingKey subscriptionId r.idempotencyKey) : Billed subscriptionId s v := by
  have hsubset := h.subset
  obtain ⟨w, rfl, hrows⟩ := h.wallet
  refine ⟨rfl, fun _ _ => rfl, fun _ _ _ => rfl, hsubset, fun t ht => ?_, fun _ => .inl⟩
  have ht : t ∈ w.transactions := ht
  rw [hrows, List.mem_append, List.mem_singleton] at ht
  rcases ht with hold | rfl
  · exact .inl hold
  · exact .inr hkey

theorem addAttempt {row : SubscriptionChargeAttempt} (hrow : row.subscriptionId = subscriptionId) :
    Billed subscriptionId s (s.addAttempt row) := by
  refine ⟨rfl, fun _ _ => rfl, fun other hother key => ?_, fun _ ht => ht, fun _ => .inl, fun _ => .inl⟩
  have hne : row.cycle ≠ (other, key) := fun h => hother ((congrArg Prod.fst h).symm.trans hrow)
  have hfind : (s.addAttempt row).findAttempt (other, key) = _ := Table.find?_append_singleton
  rw [hfind, if_neg hne, Option.or_none]
  rfl

theorem putAttempt {row : SubscriptionChargeAttempt} (hrow : row.subscriptionId = subscriptionId) :
    Billed subscriptionId s (s.putAttempt row) := by
  refine ⟨rfl, fun _ _ => rfl, fun other hother key => ?_, fun _ ht => ht, fun _ => .inl, fun _ => .inl⟩
  have hne : row.cycle ≠ (other, key) := fun h => hother ((congrArg Prod.fst h).symm.trans hrow)
  have hfind : (s.putAttempt row).findAttempt (other, key) =
      (s.findAttempt (other, key)).map fun a => if a.cycle = row.cycle then row else a :=
    Table.find?_update fun a _ ha => by rw [ha]
  rw [hfind]
  cases hfound : s.findAttempt (other, key) with
  | none => rfl
  | some a =>
    have ha : a.cycle = (other, key) := by simpa using List.find?_some hfound
    rw [Option.map_some, if_neg (ha ▸ hne.symm)]

theorem putSubscription {r : AgentSubscription} (hr : r.subscriptionId = subscriptionId) :
    Billed subscriptionId s (s.putSubscription r) := by
  refine ⟨rfl, fun other hother => ?_, fun _ _ _ => rfl, fun _ ht => ht, fun _ => .inl, fun _ => .inl⟩
  have hfind : (s.putSubscription r).findSubscription other =
      (s.findSubscription other).map fun a => if a.subscriptionId = r.subscriptionId then r else a :=
    Table.find?_update fun a _ ha => by rw [ha]
  rw [hfind]
  cases hfound : s.findSubscription other with
  | none => rfl
  | some a =>
    have ha : a.subscriptionId = other := by simpa using List.find?_some hfound
    rw [Option.map_some, if_neg (by rw [ha, hr]; exact hother)]

theorem recordCharge {c : Charge} {tx : WalletTransaction} (htx : tx ∈ s.wallet.transactions) (hid : tx.txId = c.txId)
    (hkey : BillingKey subscriptionId tx.idempotencyKey) : Billed subscriptionId s (s.recordCharge c) := by
  refine ⟨rfl, fun _ _ => rfl, fun _ _ _ => rfl, fun _ ht => ht, fun _ => .inl, fun x hx => ?_⟩
  rcases List.mem_append.mp hx with hold | hnew
  · exact .inl hold
  · obtain rfl := List.mem_singleton.mp hnew
    exact .inr ⟨tx, htx, hid, hkey⟩

theorem chargeable {r : AgentSubscription} {now : DateTime} (h : Billed subscriptionId s v)
    (hne : r.subscriptionId ≠ subscriptionId) (hchargeable : Chargeable v r now) : Chargeable s r now := by
  have hattempt := h.attempts r.subscriptionId hne (billingCycleKey r)
  obtain ⟨hdue, hplan, hcycle⟩ := hchargeable
  refine ⟨hdue, ?_, ?_⟩
  · simpa only [PlanChanged, Store.findRoom, h.rooms] using hplan
  · simpa only [CycleTaken, hattempt] using hcycle

theorem billingServed {other : SubscriptionId} {now : DateTime} (h : Billed subscriptionId s v)
    (hids : (v.wallet.transactions.map WalletTransaction.txId).Nodup) (hne : other ≠ subscriptionId)
    (hserved : BillingServed s now other) : BillingServed v now other := by
  intro r hr hchargeable
  have hfind : s.findSubscription other = some r := (h.subscriptions other hne).symm.trans hr
  have hid : r.subscriptionId = other := by simpa using List.find?_some hfind
  have hserved := hserved r hfind (h.chargeable (hid ▸ hne) hchargeable)
  cases hperiod : advancePeriod r.currentPeriodEnd r.billingInterval with
  | error e => trivial
  | ok periodEnd =>
    rw [hperiod] at hserved
    intro tx htx
    obtain ⟨htxmem, htxkey⟩ := List.mem_filter.mp htx
    have hkey : BillingKey other tx.idempotencyKey := by
      rw [(of_decide_eq_true htxkey).1]
      exact hid ▸ billingKey_billingTransfer r
    have hold : tx ∈ s.wallet.transactions :=
      (h.newRows tx htxmem).resolve_right fun hnew => hne (hkey.inj hnew)
    obtain ⟨hpaid, hunused⟩ := hserved tx (List.mem_filter.mpr ⟨hold, htxkey⟩)
    refine ⟨hpaid, fun c hc hcid => hunused c ?_ hcid⟩
    refine (h.newCharges c hc).resolve_right ?_
    rintro ⟨t, ht, htid, hbilled⟩
    obtain rfl : t = tx := List.inj_on_of_nodup_map hids ht htxmem (htid.trans hcid)
    exact hne (hkey.inj hbilled)

end Billed

section Bill

variable {r : AgentSubscription} {now : DateTime} {d : BillingDraw} {σ τ : Session Store}

theorem Billed.attempted {row : SubscriptionChargeAttempt} {s v : Store} (h : Attempted r row s v) :
    Billed r.subscriptionId s v := by
  have hid : row.subscriptionId = r.subscriptionId := congrArg Prod.fst h.cycle
  rcases h.started with rfl | ⟨-, rfl⟩
  · exact .addAttempt hid
  · exact .putAttempt hid

theorem Attempted.onlyAttempts {row : SubscriptionChargeAttempt} {s v : Store} (h : Attempted r row s v) :
    ∃ attempts, v = { s with attempts } := by
  rcases h.started with rfl | ⟨-, rfl⟩ <;> exact ⟨_, rfl⟩

theorem AgentSubscription.fail_account (r : AgentSubscription) (now retryAt : DateTime) :
    r.account = (r.fail now retryAt).account := by
  rw [AgentSubscription.fail]
  split <;> rfl

/-- What one billing that returns leaves: the charges still paid, the constraints kept, and the other subscriptions as they were. -/
structure BilledWell (subscriptionId : SubscriptionId) (σ τ : Session Store) : Prop where
  committed : τ.committed = σ.committed
  sound : Sound τ.view
  integral : τ.view.Integral
  billed : Billed subscriptionId σ.view τ.view

theorem Bills.billedWell (h : Sound σ.view) (hintegral : σ.view.Integral)
    (hcommitted : σ.committed.wallet.transactions ⊆ σ.view.wallet.transactions) (hr : r ∈ σ.view.subscriptions)
    (hserved : Chargeable σ.view r now → PeriodServed σ.view (billingTransfer r) (billingCharge r)
      (advancePeriod r.currentPeriodEnd r.billingInterval))
    (hbills : Bills r now σ τ) : BilledWell r.subscriptionId σ τ := by
  cases hbills with
  | skipped hsame =>
    obtain rfl := hsame
    exact ⟨rfl, h, hintegral, .refl _ _⟩
  | cancelled hopen hsession hok hmembers =>
    have hcancelled : Sound (σ.view.putSubscription (r.cancel now)) := h.putSubscription hr rfl
    exact ⟨hsession, hcancelled.onlyMembers hmembers, hok,
      (Billed.putSubscription (r := r.cancel now) rfl).trans (.onlyMembers hmembers)⟩
  | failed row started w retryAt reason hchargeable hattempted hrows hsession hok hmembers =>
    have hbilled := Billed.attempted hattempted
    have hrow : row.subscriptionId = r.subscriptionId := congrArg Prod.fst hattempted.cycle
    have haccount := r.fail_account now retryAt
    have hid : (r.fail now retryAt).subscriptionId = r.subscriptionId :=
      congrArg (fun account => account.1.1) haccount.symm
    obtain ⟨attempts, rfl⟩ := hattempted.onlyAttempts
    have hrow' : SubscriptionChargeAttempt.subscriptionId { row with
        status := .failed, failureReason := some reason } = r.subscriptionId := hrow
    generalize SubscriptionChargeAttempt.mk .. = failed at hrow' hmembers
    have hlocked : Sound (Store.putAttempt (Store.withWallet w { σ.view with attempts }) failed) :=
      h.of_same (fun _ ht => hrows.symm ▸ ht) rfl rfl rfl
    have hwritten : Sound ((Store.putAttempt (Store.withWallet w { σ.view with attempts }) failed).putSubscription
        (r.fail now retryAt)) := hlocked.putSubscription hr haccount
    refine ⟨hsession, hwritten.onlyMembers hmembers, hok, ?_⟩
    exact (((hbilled.trans (.withWallet hrows)).trans (.putAttempt hrow')).trans (.putSubscription hid)).trans
      (.onlyMembers hmembers)
  | charged row started d tx m periodEnd hchargeable hattempted hadvance htransfer hsession hok hview =>
    have hbilled := Billed.attempted hattempted
    have hrow : row.subscriptionId = r.subscriptionId := congrArg Prod.fst hattempted.cycle
    obtain ⟨attempts, rfl⟩ := hattempted.onlyAttempts
    have hstarted : Sound { σ.view with attempts } := h.of_same (fun _ ht => ht) rfl rfl rfl
    have hserved := hserved hchargeable
    rw [hadvance] at hserved
    have hmatches : Matches (billingTransfer r) (billingCharge r periodEnd) :=
      ⟨fun _ => rfl, fun _ => rfl, fun _ => rfl, fun _ => rfl, fun _ => rfl⟩
    obtain ⟨hsame, hmoved, hkeyed, hcharged⟩ := Sound.charge (σ := { σ with view := { σ.view with attempts } })
      hstarted hcommitted (given_billingTransfer r) hmatches hserved htransfer
    obtain ⟨hproducts, hsubscriptions⟩ := product_after hmoved
    obtain ⟨htxmem, htxkey⟩ := List.mem_filter.mp hkeyed
    have hkey : BillingKey r.subscriptionId tx.idempotencyKey := by
      rw [(of_decide_eq_true htxkey).1]
      exact billingKey_billingTransfer r
    have hpaid : Billed r.subscriptionId { σ.view with attempts } m.view := by
      rcases hmoved with hunmoved | hmoved
      · rw [hunmoved]
        exact .refl _ _
      · exact .moved hmoved (billingKey_billingTransfer r)
    refine ⟨hsession.trans hsame, ?_, hok, ?_⟩
    · have hwritten : Sound ((m.view.recordCharge (billingCharge r periodEnd tx.txId)).putSubscription
          (r.advance now periodEnd tx.txId)) :=
        hcharged.putSubscription_charged (List.mem_append_right _ (List.mem_singleton_self _)) rfl rfl rfl rfl
          (hproducts ▸ h.provided r hr)
      rw [hview]
      exact hwritten.of_same (fun _ ht => ht) rfl rfl rfl
    · rw [hview]
      refine (hbilled.trans hpaid).trans ?_
      have hattempted : SubscriptionChargeAttempt.subscriptionId { row with
          status := .succeeded, txId := some tx.txId, failureReason := none } = r.subscriptionId := hrow
      have hadvanced : (r.advance now periodEnd tx.txId).subscriptionId = r.subscriptionId := rfl
      exact ((Billed.putAttempt hattempted).trans (.putSubscription hadvanced)).trans (.recordCharge htxmem rfl hkey)

theorem billSubscription_billedWell {subscriptionId : SubscriptionId} {outcome : Option Outcome} (h : Sound σ.view)
    (hintegral : σ.view.Integral) (hcommitted : σ.committed.wallet.transactions ⊆ σ.view.wallet.transactions)
    (hserved : BillingServed σ.view now subscriptionId)
    (hrun : exec (billSubscription subscriptionId now d) σ = (.ok outcome, τ)) : BilledWell subscriptionId σ τ := by
  rcases billSubscription_ok hrun with rfl | ⟨r, hfind, hbills⟩
  · exact ⟨rfl, h, hintegral, .refl _ _⟩
  · have hid : r.subscriptionId = subscriptionId := by simpa using List.find?_some hfind
    exact hid ▸ hbills.billedWell h hintegral hcommitted (List.mem_of_find?_eq_some hfind) (hserved r hfind)

/-- What holds between the passes of the loop: of the store by then, with the rows that were committed before. -/
structure Between (s v : Store) (now : DateTime) (rest : List SubscriptionId) : Prop where
  sound : Sound v
  integral : v.Integral
  rows : s.wallet.transactions ⊆ v.wallet.transactions
  served : ∀ subscriptionId ∈ rest, BillingServed v now subscriptionId

theorem Between.next {s v u : Store} {subscriptionId : SubscriptionId} {rest : List SubscriptionId}
    (h : Between s v now (subscriptionId :: rest)) (hnew : subscriptionId ∉ rest) (hsound : Sound u)
    (hintegral : u.Integral) (hbilled : Billed subscriptionId v u) : Between s u now rest := by
  refine ⟨hsound, hintegral, fun _ ht => hbilled.rows (h.rows ht), fun other hother => ?_⟩
  have hne : other ≠ subscriptionId := fun heq => hnew (heq ▸ hother)
  exact hbilled.billingServed hintegral.wallet.tx_ids hne (h.served other (List.mem_cons_of_mem _ hother))

theorem billEach_sound {draws : ℕ → BillingDraw} {k : ℕ} {result total : BillingResult} {ids : List SubscriptionId}
    {s : Store} (hids : ids.Nodup) (hstart : Between s s now ids) (hcommitted : σ.committed = s)
    (h : Between s σ.view now ids) (hrun : exec (billEach now draws k result ids) σ = (.ok total, τ)) :
    Sound τ.view := by
  induction ids generalizing k result σ with
  | nil =>
    obtain ⟨-, rfl⟩ := exec_pure_ok.mp hrun
    exact h.sound
  | cons subscriptionId rest ih =>
    rw [List.nodup_cons] at hids
    rw [billEach, exec_attempt_bind] at hrun
    have hrest : Between s s now rest :=
      ⟨hstart.sound, hstart.integral, hstart.rows, fun other hother =>
        hstart.served other (List.mem_cons_of_mem _ hother)⟩
    rcases beginNested_cases (billSubscription subscriptionId now (draws k)) σ with hsame | hrolled | ⟨outcome, hbill⟩
    · rw [hsame] at hrun
      refine ih hids.2 hrest hcommitted ⟨h.sound, h.integral, h.rows, fun other hother => ?_⟩ hrun
      exact h.served other (List.mem_cons_of_mem _ hother)
    · rw [hrolled] at hrun
      exact ih (σ := ⟨σ.committed, σ.committed⟩) hids.2 hrest hcommitted (by rw [hcommitted]; exact hrest) hrun
    · obtain ⟨hsession, hsound, hintegral, hbilled⟩ := billSubscription_billedWell h.sound h.integral
        (hcommitted ▸ h.rows) (h.served subscriptionId List.mem_cons_self) hbill
      exact ih hids.2 hrest (hsession.trans hcommitted) (h.next hids.1 hsound hintegral hbilled) hrun

theorem processDue_sound {limit : ℕ} {draws : ℕ → BillingDraw} {result : BillingResult} {s : Store} (h : Sound s)
    (hintegral : s.Integral) (hserved : Served s (.processDue now limit draws))
    (hrun : exec (processDueSubscriptionBillings now limit draws) ⟨s, s⟩ = (.ok result, τ)) : Sound τ.view := by
  rw [processDueSubscriptionBillings, exec_view_bind] at hrun
  have hstart : Between s s now (dueSubscriptions s now limit) := ⟨h, hintegral, fun _ ht => ht, hserved⟩
  exact billEach_sound (nodup_dueSubscriptions hintegral now limit) hstart rfl hstart hrun

end Bill

end BotCord.Subscriptions

/-!
## Every period is paid by its own transfer

In every run in which each charge's key serves it when the charge is made. Elsewhere the lookup answers with a transfer that was made for something else, and the period is activated on it: a subscriber who chose the key, or chose it twice, has not paid.
-/

namespace BotCord.Subscriptions

open Transaction

/-- What a run keeps: the charges paid, and the database's constraints. -/
structure Kept (s : Store) : Prop where
  sound : Sound s
  integral : s.Integral

theorem Fresh.kept {s : Store} (h : Fresh s) : Kept s := by
  refine ⟨⟨⟨?_, ?_, ?_⟩, ?_⟩, h.integral⟩
  · rw [h.charges]
    simp
  · rw [h.charges]
    simp
  · rw [h.subscriptions]
    simp
  · rw [h.subscriptions]
    simp

theorem call_sound {s : Store} {op : Operation} {τ : Session Store} (h : Kept s) (hserved : Served s op)
    (hrun : exec op.call ⟨s, s⟩ = (.ok (), τ)) : Sound τ.view := by
  cases op with
  | createTransfer r d =>
    obtain ⟨tx, hrun⟩ := exec_void_ok.mp hrun
    exact createTransfer_sound h.sound hrun
  | createProduct form productId =>
    obtain ⟨product, hrun⟩ := exec_void_ok.mp hrun
    exact createSubscriptionProduct_sound h.sound hrun
  | archiveProduct productId ownerId ownerType =>
    obtain ⟨product, hrun⟩ := exec_void_ok.mp hrun
    exact archiveSubscriptionProduct_sound h.sound hrun
  | subscribe r now d =>
    obtain ⟨subscription, hrun⟩ := exec_void_ok.mp hrun
    exact createSubscription_sound h.sound h.integral hserved hrun
  | cancel subscriptionId currentAgent now =>
    obtain ⟨subscription, hrun⟩ := exec_void_ok.mp hrun
    exact cancelSubscription_sound h.sound hrun
  | processDue now limit draws =>
    obtain ⟨result, hrun⟩ := exec_void_ok.mp hrun
    exact processDue_sound h.sound h.integral hserved hrun
  | changeRooms rooms members =>
    obtain ⟨-, rfl⟩ := Prod.mk.inj (show (Except.ok (), _) = _ from hrun)
    exact changeRooms_sound h.sound

theorem Kept.step {s : Store} {op : Operation} (h : Kept s) (hserved : Served s op) : Kept (op.apply s) := by
  rcases atomically_flush_cases op.call Store.constraints s with hsame | ⟨τ, hrun, hafter, hok⟩
  · have hsame : op.apply s = s := hsame
    exact hsame.symm ▸ h
  · have hafter : op.apply s = τ.view := hafter
    exact hafter.symm ▸ ⟨call_sound h hserved hrun, Store.integral_of_constraints hok⟩

theorem paid_once (start : Store) (actions : List Operation) (s : Store) (hfresh : Fresh start)
    (hmeets : service.Meets Served start actions) (hrun : service.run start actions = some s) : PaidOnce s :=
  (service.run_invariant_of_meets (fun _ _ _ hkept hserved hstep => Option.some.inj hstep ▸ hkept.step hserved)
    hfresh.kept hmeets hrun).sound.toPaidOnce

/-- One subscriber with a hundred coins, and one product at five a month. -/
def shop : Store where
  wallet :=
    { agents := ["ag_a", "ag_b", "ag_c"], humans := []
      wallets := [{ ownerId := "ag_a", assetCode := "COIN", availableBalanceMinor := 100 }] }
  products :=
    [{ productId := "p", ownerId := "ag_b", ownerType := .agent, providerAgentId := "ag_b", name := "news"
       amountMinor := 5, billingInterval := .month }]

theorem fresh_shop : Fresh shop := ⟨by decide +kernel, rfl, rfl, rfl⟩

def month (month day : ℕ) : DateTime := { year := 2026, month, day }

/-- A subscription without a key of its own, billed once. -/
def oneMonth : List Operation :=
  [.subscribe { productId := "p", subscriberAgentId := "ag_a" } (month 1 31) ⟨"sub_1", ⟨"tx_1", "", "e_1", "e_2"⟩⟩,
    .processDue (month 2 28) 100 fun _ => ⟨"at_1", ⟨"tx_2", "", "e_3", "e_4"⟩⟩]

theorem paid_once_one_month :
    ∃ s, service.run shop oneMonth = some s ∧ s.charges.map Charge.txId = ["tx_1", "tx_2"] ∧ PaidOnce s :=
  ⟨_, rfl, by decide +kernel, paid_once shop oneMonth _ fresh_shop (by decide +kernel) rfl⟩

/-- A transfer of one coin to someone else, and a subscription under the key of that transfer. -/
def reusedKey : List Operation :=
  [.createTransfer { fromOwnerId := "ag_a", toOwnerId := "ag_c", amountMinor := 1, idempotencyKey := some "k" }
      ⟨"tx_1", "", "e_1", "e_2"⟩,
    .subscribe { productId := "p", subscriberAgentId := "ag_a", idempotencyKey := some "k" } (month 1 31)
      ⟨"sub_1", ⟨"tx_2", "", "e_3", "e_4"⟩⟩]

/-- The subscription is active on the transfer to someone else, and its provider got nothing. -/
theorem unpaid_reused_key : ∃ s, Fresh shop ∧ service.run shop reusedKey = some s ∧
    s.subscriptions.map AgentSubscription.lastChargeTxId = [some "tx_1"] ∧ ¬ PaidOnce s :=
  ⟨_, fresh_shop, rfl, by decide +kernel, fun h =>
    absurd (h.paid (firstCharge { shop.products[0] with } { productId := "p", subscriberAgentId := "ag_a" }
      (month 1 31) (month 2 28) "sub_1" "tx_1") (by decide +kernel)) (by decide +kernel)⟩

end BotCord.Subscriptions
