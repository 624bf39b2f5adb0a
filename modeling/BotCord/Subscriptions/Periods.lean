import BotCord.Subscriptions.Changes
import BotCord.Subscriptions.Billing

/-!
# Periods follow on one another

In every run, whatever was paid late, in vain or not at all, the charges of a subscription are activations, each followed by renewals that continue it period by period, and a cancelled subscription is left alone by the billing pass until it is reactivated. A cancelled subscription keeps the failures that were recorded before, so `past_due` is told from them only while it is not cancelled.
-/

namespace BotCord.Subscriptions

open Transaction
open Wallet (TxId WalletTransaction TransferRequest Given keyedRows)

section Bill

variable {r : AgentSubscription} {row : SubscriptionChargeAttempt} {now : DateTime} {s v u : Store} {σ τ : Session Store}
  {new : History}

theorem mem_putAttempt_self (h : ∃ a ∈ s.attempts, a.cycle = row.cycle) : row ∈ (s.putAttempt row).attempts := by
  obtain ⟨a, ha, hcycle⟩ := h
  exact Table.mem_update.mpr ⟨a, ha, if_pos hcycle⟩

theorem Attempted.attempts (h : Attempted r row s v) :
    (∀ a ∈ s.attempts, a.cycle ≠ row.cycle → a ∈ v.attempts) ∧ row ∈ v.attempts := by
  rcases h.started with rfl | ⟨hstood, rfl⟩
  · exact ⟨fun a ha _ => List.mem_append_left _ ha, List.mem_append_right _ (List.mem_singleton_self _)⟩
  · exact ⟨fun a ha hne => Table.mem_update_of_not ha hne, mem_putAttempt_self hstood⟩

theorem Attempted.tables (h : Attempted r row s v) :
    v.wallet = s.wallet ∧ v.subscriptions = s.subscriptions ∧ v.charges = s.charges := by
  rcases h.started with rfl | ⟨-, rfl⟩ <;> exact ⟨rfl, rfl, rfl⟩

theorem Chargeable.uncharged (h : Chargeable s r now) (hintegral : s.Integral) :
    ∀ a ∈ s.attempts, a.cycle = (r.subscriptionId, billingCycleKey r) → a.status ≠ .succeeded := by
  intro a ha hcycle hsucceeded
  refine h.2.2 ⟨a, ?_, by simp [hsucceeded]⟩
  have hfind := Table.find?_eq_some_of_mem hintegral.attempt_cycles ha
  rw [hcycle] at hfind
  exact hfind

/-- What one billing leaves: a change that is for this subscription, and transfers for it alone. -/
structure BillsOne (r : AgentSubscription) (s v : Store) (new : History) : Prop where
  change : Change s v new
  renewals : ∀ x ∈ new, x.1 = .renewal ∧ x.2.subscriptionId = r.subscriptionId
  others : ∀ other ∈ s.subscriptions, other.subscriptionId ≠ r.subscriptionId → other ∈ v.subscriptions
  rows : s.wallet.transactions ⊆ v.wallet.transactions
  payments : ∀ t ∈ v.wallet.transactions, t ∈ s.wallet.transactions ∨ t.referenceId = some r.subscriptionId

theorem mem_putSubscription_of_ne {other : AgentSubscription} (hother : other ∈ s.subscriptions)
    (hne : other.subscriptionId ≠ r.subscriptionId) : other ∈ (s.putSubscription r).subscriptions :=
  Table.mem_update_of_not hother hne

theorem BillsOne.onlyMembers (h : BillsOne r s v new) (hmembers : OnlyMembers v u) : BillsOne r s u new := by
  have hchange := h.change.onlyMembers hmembers
  obtain ⟨_, rfl⟩ := hmembers
  exact ⟨hchange, h.renewals, h.others, h.rows, h.payments⟩

/-- A failure: the attempt is written over itself, and the row of the subscription moves. -/
theorem Attempted.fails {w : Wallet.Store} {retryAt : DateTime} {reason : Wallet.Error}
    (hattempted : Attempted r row s v) (hintegral : s.Integral) (hr : r ∈ s.subscriptions)
    (hchargeable : Chargeable s r now) (hrows : w.transactions = v.wallet.transactions) :
    BillsOne r s (((v.withWallet w).putAttempt
      { row with status := .failed, failureReason := some reason }).putSubscription (r.fail now retryAt)) [] := by
  have hmove : Moves r (r.fail now retryAt) [] := .fail now retryAt hchargeable.1.1
  obtain ⟨hwallet, hsubscriptions, hcharges⟩ := hattempted.tables
  obtain ⟨hothers, -⟩ := hattempted.attempts
  have hput : (v.putSubscription (r.fail now retryAt)).subscriptions =
      (s.putSubscription (r.fail now retryAt)).subscriptions := by
    rw [Store.putSubscription, Store.putSubscription, hsubscriptions]
  refine ⟨⟨.moved hr hmove hput, ?_, fun a ha hsucceeded => ?_, by simp⟩, by simp, fun other hother hne => ?_, ?_, ?_⟩
  · rw [List.map_nil, List.append_nil]
    exact hcharges
  · have hne : a.cycle ≠ row.cycle := fun hcycle =>
      hchargeable.uncharged hintegral a ha (hcycle.trans hattempted.cycle) hsucceeded
    exact Table.mem_update_of_not (hothers a ha hne) hne
  · exact hput ▸ mem_putSubscription_of_ne hother (hmove.subscriptionId.1 ▸ hne)
  · intro t ht
    exact hrows.symm ▸ hwallet.symm ▸ ht
  · intro t ht
    exact .inl (hwallet ▸ hrows ▸ ht)

theorem Attempted.succeeds {tx : WalletTransaction} {m : Store} {periodEnd : DateTime}
    (hattempted : Attempted r row s v) (hintegral : s.Integral) (hr : r ∈ s.subscriptions)
    (hchargeable : Chargeable s r now)
    (hadvance : advancePeriod r.currentPeriodEnd r.billingInterval = .ok periodEnd)
    (hmoved : m = v ∨ ∃ d, Moved (billingTransfer r) d v m) :
    BillsOne r s (((m.putAttempt
      { row with status := .succeeded, txId := some tx.txId, failureReason := none }).putSubscription
        (r.advance now periodEnd tx.txId)).recordCharge (billingCharge r periodEnd tx.txId))
      [(.renewal, billingCharge r periodEnd tx.txId)] := by
  obtain ⟨hwallet, hsubscriptions, hcharges⟩ := hattempted.tables
  obtain ⟨hothers, hown⟩ := hattempted.attempts
  have huncharged := hchargeable.uncharged hintegral
  have htables : m.subscriptions = v.subscriptions ∧ m.attempts = v.attempts ∧ m.charges = v.charges := by
    rcases hmoved with rfl | ⟨d, hmoved⟩
    · exact ⟨rfl, rfl, rfl⟩
    · obtain ⟨w, rfl, -⟩ := hmoved.wallet
      exact ⟨rfl, rfl, rfl⟩
  obtain ⟨hmsubscriptions, hmattempts, hmcharges⟩ := htables
  have hput : (m.putSubscription (r.advance now periodEnd tx.txId)).subscriptions =
      (s.putSubscription (r.advance now periodEnd tx.txId)).subscriptions := by
    rw [Store.putSubscription, Store.putSubscription, hmsubscriptions, hsubscriptions]
  refine ⟨⟨.moved hr (.advance now periodEnd tx.txId hchargeable.1.1 hadvance) hput, ?_, fun a ha hsucceeded => ?_, ?_⟩,
    ?_, fun other hother hne => ?_, ?_, ?_⟩
  · exact congrArg (· ++ [_]) (hmcharges.trans hcharges)
  · have hne : a.cycle ≠ row.cycle := fun hcycle => huncharged a ha (hcycle.trans hattempted.cycle) hsucceeded
    have hkept : a ∈ m.attempts := hmattempts ▸ hothers a ha hne
    exact Table.mem_update_of_not hkept hne
  · rintro x hx -
    rw [List.mem_singleton.mp hx]
    refine ⟨fun a ha hcycle => huncharged a ha hcycle, _, mem_putAttempt_self (s := m) ?_, hattempted.cycle, rfl, rfl⟩
    exact ⟨row, hmattempts ▸ hown, rfl⟩
  · intro x hx
    rw [List.mem_singleton.mp hx]
    exact ⟨rfl, rfl⟩
  · exact hput ▸ mem_putSubscription_of_ne hother hne
  · rcases hmoved with rfl | ⟨d, hmoved⟩
    · exact fun t ht => hwallet.symm ▸ ht
    · exact fun t ht => hmoved.subset (hwallet.symm ▸ ht)
  · intro t ht
    rcases hmoved with rfl | ⟨d, hmoved⟩
    · exact .inl (hwallet ▸ ht)
    · obtain ⟨w, rfl, hrows⟩ := hmoved.wallet
      have ht : t ∈ w.transactions := ht
      rw [hrows, List.mem_append, List.mem_singleton] at ht
      rcases ht with hold | rfl
      · exact .inl (hwallet ▸ hold)
      · exact .inr rfl

/-- A billing leaves everything as it was, or is for a subscription that is not cancelled. -/
theorem Bills.billsOne (h : Bills r now σ τ) (hintegral : σ.view.Integral) (hr : r ∈ σ.view.subscriptions)
    (hcommitted : σ.committed.wallet.transactions ⊆ σ.view.wallet.transactions) :
    τ = σ ∨ r.status ≠ .cancelled ∧ τ.committed = σ.committed ∧ τ.view.Integral ∧
      ∃ new, BillsOne r σ.view τ.view new := by
  cases h with
  | skipped hsame => exact .inl hsame
  | cancelled hopen hsession hok hmembers =>
    refine .inr ⟨hopen, hsession, hok, [], BillsOne.onlyMembers ⟨?_, by simp, ?_, ?_, ?_⟩ hmembers⟩
    · exact .moved hr (.cancel now hopen) rfl rfl (by simp [Store.putSubscription]) (by simp)
    · exact fun other hother hne => mem_putSubscription_of_ne hother hne
    · exact fun _ ht => ht
    · exact fun _ => .inl
  | failed row started w retryAt reason hchargeable hattempted hrows hsession hok hmembers =>
    exact .inr ⟨hchargeable.1.1, hsession, hok, [],
      (hattempted.fails hintegral hr hchargeable hrows).onlyMembers hmembers⟩
  | charged row started d tx m periodEnd hchargeable hattempted hadvance htransfer hsession hok hview =>
    have hseen : σ.committed.wallet.transactions ⊆ started.wallet.transactions := by
      rw [hattempted.tables.1]
      exact hcommitted
    obtain ⟨hsame, hmoved⟩ := createTransfer_given (σ := { σ with view := started }) hseen (given_billingTransfer r)
      htransfer
    refine .inr ⟨hchargeable.1.1, hsession.trans hsame, hok, [(.renewal, billingCharge r periodEnd tx.txId)], ?_⟩
    rw [hview]
    exact hattempted.succeeds hintegral hr hchargeable hadvance
      (hmoved.imp (fun h => h.1) fun h => ⟨d, h.2⟩)

end Bill

/-- Nothing was charged to the subscription, and its row is as it was. -/
structure Unbilled (r : AgentSubscription) (s v : Store) : Prop where
  row : r ∈ v.subscriptions
  charges : ∀ c ∈ v.charges, c.subscriptionId = r.subscriptionId → c ∈ s.charges
  payments : ∀ t ∈ v.wallet.transactions, t.referenceId = some r.subscriptionId → t ∈ s.wallet.transactions

structure Pass (s v : Store) (new : History) : Prop where
  integral : v.Integral
  followed : ∀ h, Followed s h → Followed v (h ++ new)
  charges : v.charges = s.charges ++ new.map Prod.snd
  renewals : ∀ x ∈ new, x.1 = .renewal
  rows : s.wallet.transactions ⊆ v.wallet.transactions
  cancelled : ∀ r ∈ s.subscriptions, r.status = .cancelled → Unbilled r s v

section Pass

variable {s v u : Store} {new : History} {σ τ : Session Store}

theorem Pass.refl (h : s.Integral) : Pass s s [] :=
  ⟨h, fun _ hs => by simpa using hs, by simp, by simp, fun _ ht => ht, fun _ hr _ => ⟨hr, fun _ hc _ => hc,
    fun _ ht _ => ht⟩⟩

theorem Pass.bill {r : AgentSubscription} {charged : History} (h : Pass s v new) (hr : r ∈ v.subscriptions)
    (hopen : r.status ≠ .cancelled) (hintegral : u.Integral) (hbills : BillsOne r v u charged) :
    Pass s u (new ++ charged) := by
  refine ⟨hintegral, fun hist hs => ?_, ?_, fun x hx => ?_, fun _ ht => hbills.rows (h.rows ht), fun x hx hcancelled => ?_⟩
  · rw [← List.append_assoc]
    exact (h.followed hist hs).change hbills.change
  · rw [hbills.change.charges, h.charges, List.map_append, List.append_assoc]
  · exact (List.mem_append.mp hx).elim (h.renewals x) fun hnew => (hbills.renewals x hnew).1
  · obtain ⟨hrow, hcharges, hpayments⟩ := h.cancelled x hx hcancelled
    -- two rows of one id are one row, and this one is cancelled
    have hne : x.subscriptionId ≠ r.subscriptionId := by
      intro hid
      obtain rfl := List.inj_on_of_nodup_map h.integral.subscription_ids hrow hr hid
      exact hopen hcancelled
    refine ⟨hbills.others x hrow hne, fun c hc hid => ?_, fun t ht href => ?_⟩
    · rw [hbills.change.charges] at hc
      rcases List.mem_append.mp hc with hold | hnew
      · exact hcharges c hold hid
      · obtain ⟨y, hy, rfl⟩ := List.mem_map.mp hnew
        exact absurd (hid.symm.trans (hbills.renewals y hy).2) hne
    · rcases hbills.payments t ht with hold | hnew
      · exact hpayments t hold href
      · exact absurd (Option.some.inj (href.symm.trans hnew)) hne

theorem Pass.billSubscription {subscriptionId : SubscriptionId} {now : DateTime} {d : BillingDraw}
    {outcome : Option Outcome} (h : Pass s σ.view new) (hcommitted : σ.committed = s)
    (hrun : exec (billSubscription subscriptionId now d) σ = (.ok outcome, τ)) :
    τ.committed = s ∧ ∃ new', Pass s τ.view new' := by
  rcases billSubscription_ok hrun with rfl | ⟨r, hfind, hbills⟩
  · exact ⟨hcommitted, new, h⟩
  · have hr : r ∈ σ.view.subscriptions := List.mem_of_find?_eq_some hfind
    rcases hbills.billsOne h.integral hr (hcommitted ▸ h.rows) with rfl | ⟨hopen, hsession, hok, charged, hone⟩
    · exact ⟨hcommitted, new, h⟩
    · exact ⟨hsession.trans hcommitted, _, h.bill hr hopen hok hone⟩

theorem billEach_pass {now : DateTime} {draws : ℕ → BillingDraw} {k : ℕ} {result total : BillingResult}
    {ids : List SubscriptionId} (hstart : s.Integral) (hcommitted : σ.committed = s) (h : Pass s σ.view new)
    (hrun : exec (billEach now draws k result ids) σ = (.ok total, τ)) : ∃ new', Pass s τ.view new' := by
  induction ids generalizing k result σ new with
  | nil =>
    obtain ⟨-, rfl⟩ := exec_pure_ok.mp hrun
    exact ⟨new, h⟩
  | cons subscriptionId rest ih =>
    rw [billEach, exec_attempt_bind] at hrun
    rcases beginNested_cases (billSubscription subscriptionId now (draws k)) σ with hsame | hrolled | ⟨outcome, hbill⟩
    · rw [hsame] at hrun
      exact ih hcommitted h hrun
    · have hback : Pass s σ.committed [] := by
        rw [hcommitted]
        exact .refl hstart
      rw [hrolled] at hrun
      exact ih (σ := ⟨σ.committed, σ.committed⟩) hcommitted hback hrun
    · obtain ⟨hcommitted', new', h'⟩ := h.billSubscription hcommitted hbill
      exact ih hcommitted' h' hrun

theorem processDue_pass {now : DateTime} {limit : ℕ} {draws : ℕ → BillingDraw} {result : BillingResult}
    (h : s.Integral) (hrun : exec (processDueSubscriptionBillings now limit draws) ⟨s, s⟩ = (.ok result, τ)) :
    ∃ new, Pass s τ.view new := by
  rw [processDueSubscriptionBillings, exec_view_bind] at hrun
  exact billEach_pass h rfl (Pass.refl h) hrun

end Pass

def Operation.chargeKind : Operation → ChargeKind
  | .processDue _ _ _ => .renewal
  | _ => .activation

def Operation.charged (op : Operation) (s : Store) : History :=
  ((op.apply s).charges.drop s.charges.length).map (op.chargeKind, ·)

/-- The charges of a run, each with the kind of the operation that made it. -/
def historyOf : Store → List Operation → History
  | _, [] => []
  | s, op :: rest => op.charged s ++ historyOf (op.apply s) rest

theorem Operation.charged_eq {s : Store} {op : Operation} {new : History}
    (hcharges : (op.apply s).charges = s.charges ++ new.map Prod.snd) (hkind : ∀ x ∈ new, x.1 = op.chargeKind) :
    op.charged s = new := by
  have hpairs : ∀ x ∈ new, (op.chargeKind, x.2) = x := fun x hx => by rw [← hkind x hx]
  calc op.charged s = new.map fun x => (op.chargeKind, x.2) := by
        rw [Operation.charged, hcharges, List.drop_left, List.map_map]
        rfl
    _ = new.map id := List.map_congr_left hpairs
    _ = new := List.map_id new

/-- What a call made of the store it saw: charges of the operation's kind, by which what is followed is kept. -/
structure CallFollowed (op : Operation) (s v : Store) (new : History) : Prop where
  followed : ∀ h, Followed s h → Followed v (h ++ new)
  charges : v.charges = s.charges ++ new.map Prod.snd
  kinds : ∀ x ∈ new, x.1 = op.chargeKind

theorem Change.callFollowed {op : Operation} {s v : Store} {new : History} (h : Change s v new)
    (hkinds : ∀ x ∈ new, x.1 = op.chargeKind) : CallFollowed op s v new :=
  ⟨fun _ hs => hs.change h, h.charges, hkinds⟩

theorem call_followed {s : Store} {op : Operation} {τ : Session Store} (h : s.Integral)
    (hrun : exec op.call ⟨s, s⟩ = (.ok (), τ)) : ∃ new, CallFollowed op s τ.view new := by
  cases op with
  | createTransfer r d =>
    obtain ⟨tx, hrun⟩ := exec_void_ok.mp hrun
    exact ⟨[], (createTransfer_change hrun).callFollowed (by simp)⟩
  | createProduct form productId =>
    obtain ⟨product, hrun⟩ := exec_void_ok.mp hrun
    exact ⟨[], (createSubscriptionProduct_change hrun).callFollowed (by simp)⟩
  | archiveProduct productId ownerId ownerType =>
    obtain ⟨product, hrun⟩ := exec_void_ok.mp hrun
    exact ⟨[], (archiveSubscriptionProduct_change hrun).callFollowed (by simp)⟩
  | subscribe r now d =>
    obtain ⟨subscription, hrun⟩ := exec_void_ok.mp hrun
    obtain ⟨new, hchange, hkinds⟩ := createSubscription_change hrun
    exact ⟨new, hchange.callFollowed hkinds⟩
  | cancel subscriptionId currentAgent now =>
    obtain ⟨subscription, hrun⟩ := exec_void_ok.mp hrun
    exact ⟨[], (cancelSubscription_change hrun).callFollowed (by simp)⟩
  | processDue now limit draws =>
    obtain ⟨result, hrun⟩ := exec_void_ok.mp hrun
    obtain ⟨new, hpass⟩ := processDue_pass h hrun
    exact ⟨new, hpass.followed, hpass.charges, hpass.renewals⟩
  | changeRooms rooms members =>
    obtain ⟨-, rfl⟩ := Prod.mk.inj (show (Except.ok (), _) = _ from hrun)
    exact ⟨[], (changeRooms_change s rooms members).callFollowed (by simp)⟩

theorem Followed.step {s : Store} {h : History} (hs : Followed s h) (hintegral : s.Integral) (op : Operation) :
    Followed (op.apply s) (h ++ op.charged s) ∧ (op.apply s).Integral := by
  rcases atomically_flush_cases op.call Store.constraints s with hsame | ⟨τ, hrun, hafter, hok⟩
  · have hsame : op.apply s = s := hsame
    have hnone : op.charged s = [] := Operation.charged_eq (by simp [hsame]) (by simp)
    rw [hsame, hnone, List.append_nil]
    exact ⟨hs, hintegral⟩
  · have hafter : op.apply s = τ.view := hafter
    obtain ⟨new, hfollowed, hcharges, hkinds⟩ := call_followed hintegral hrun
    rw [Operation.charged_eq (hafter ▸ hcharges) hkinds, hafter]
    exact ⟨hfollowed h hs, Store.integral_of_constraints hok⟩

theorem Followed.run {start s : Store} {h : History} {actions : List Operation} (hs : Followed start h)
    (hintegral : start.Integral) (hrun : service.run start actions = some s) :
    Followed s (h ++ historyOf start actions) ∧ s.Integral := by
  induction actions generalizing start h with
  | nil =>
    obtain rfl := Option.some.inj hrun
    rw [historyOf, List.append_nil]
    exact ⟨hs, hintegral⟩
  | cons op rest ih =>
    obtain ⟨next, hnext, hrest⟩ := service.run_cons_eq_some.mp hrun
    obtain rfl : op.apply start = next := Option.some.inj hnext
    obtain ⟨hfollowed, hkept⟩ := hs.step hintegral op
    rw [historyOf, ← List.append_assoc]
    exact ih hfollowed hkept hrest

theorem Fresh.followed {s : Store} (h : Fresh s) : Followed s [] := by
  refine ⟨⟨?_, ?_, by simp⟩, by simp, by simp [h.charges]⟩
  · simp [h.subscriptions]
  · simp [h.subscriptions]

theorem processDue_unbilled {s : Store} (hintegral : s.Integral) (now : DateTime) (limit : ℕ) (draws : ℕ → BillingDraw)
    {r : AgentSubscription} (hr : r ∈ s.subscriptions) (hcancelled : r.status = .cancelled) :
    Unbilled r s ((Operation.processDue now limit draws).apply s) := by
  rcases atomically_flush_cases (Operation.call (.processDue now limit draws)) Store.constraints s with
    hsame | ⟨τ, hrun, hafter, -⟩
  · have hsame : (Operation.processDue now limit draws).apply s = s := hsame
    rw [hsame]
    exact ⟨hr, fun _ hc _ => hc, fun _ ht _ => ht⟩
  · have hafter : (Operation.processDue now limit draws).apply s = τ.view := hafter
    obtain ⟨result, hrun⟩ := exec_void_ok.mp hrun
    obtain ⟨new, hpass⟩ := processDue_pass hintegral hrun
    rw [hafter]
    exact hpass.cancelled r hr hcancelled

theorem billed_in_order (start : Store) (actions : List Operation) (s : Store) (hfresh : Fresh start)
    (hrun : service.run start actions = some s) :
    BilledInOrder s (historyOf start actions) ∧
      ∀ (now : DateTime) (limit : ℕ) (draws : ℕ → BillingDraw), ∀ r ∈ s.subscriptions, r.status = .cancelled →
        Unbilled r s ((Operation.processDue now limit draws).apply s) := by
  obtain ⟨hfollowed, hintegral⟩ := hfresh.followed.run hfresh.integral hrun
  exact ⟨hfollowed.toBilledInOrder, fun now limit draws r hr hcancelled =>
    processDue_unbilled hintegral now limit draws hr hcancelled⟩

theorem billed_in_order_one_month :
    ∃ s, service.run shop oneMonth = some s ∧ (historyOf shop oneMonth).map Prod.fst = [.activation, .renewal] ∧
      BilledInOrder s (historyOf shop oneMonth) :=
  ⟨_, rfl, by decide +kernel, (billed_in_order shop oneMonth _ fresh_shop rfl).1⟩

/-- A subscription that takes the last coins of its subscriber, is billed in vain, and is cancelled. -/
def cancelledLate : List Operation :=
  [.subscribe { productId := "p", subscriberAgentId := "ag_a" } (month 1 31) ⟨"sub_1", ⟨"tx_1", "", "e_1", "e_2"⟩⟩,
    .createTransfer { fromOwnerId := "ag_a", toOwnerId := "ag_c", amountMinor := 95 } ⟨"tx_2", "", "e_3", "e_4"⟩,
    .processDue (month 2 28) 100 (fun _ => ⟨"at_1", ⟨"tx_3", "", "e_5", "e_6"⟩⟩),
    .cancel "sub_1" "ag_a" (month 3 1)]

/-- The failure stays recorded, and the subscription is not past due. -/
theorem cancelled_with_failure : Fresh shop ∧ ∃ s ∈ service.run shop cancelledLate, ∃ r ∈ s.subscriptions,
    r.consecutiveFailedAttempts = 1 ∧ r.status = .cancelled ∧
      ¬ (r.status = .pastDue ↔ r.consecutiveFailedAttempts = 1 ∨ r.consecutiveFailedAttempts = 2) :=
  ⟨fresh_shop, by decide +kernel⟩

end BotCord.Subscriptions
