import BotCord.Subscriptions.Returns
import Mathlib.Data.List.Chain

/-!
# The life of a subscription

One subscription is opened or reactivated by a first payment, renewed by the billing pass, and cancelled by a call, a change of plan or a third failure. `Moves` is this automaton. A history is every charge so far with how it was made; what `InOrder` says of the history of one subscription holds whatever order the moves come in.
-/

namespace BotCord.Subscriptions

inductive ChargeKind
  | activation | renewal
deriving DecidableEq

abbrev History := List (ChargeKind × Charge)

def History.of (h : History) (subscriptionId : SubscriptionId) : History :=
  h.filter (·.2.subscriptionId = subscriptionId)

/-- The subscription and the `billing_cycle_key` of the attempt that a renewal is made under. -/
def Charge.cycle (c : Charge) : SubscriptionId × String := (c.subscriptionId, c.periodStart.isoformat)

theorem History.of_append (h new : History) (subscriptionId : SubscriptionId) :
    History.of (h ++ new) subscriptionId = h.of subscriptionId ++ History.of new subscriptionId :=
  List.filter_append ..

theorem History.of_singleton (x : ChargeKind × Charge) : History.of [x] x.2.subscriptionId = [x] := by
  simp [History.of]

theorem History.of_eq_nil {h : History} {subscriptionId : SubscriptionId}
    (hother : ∀ x ∈ h, x.2.subscriptionId ≠ subscriptionId) : h.of subscriptionId = [] := by
  simpa [History.of] using hother

theorem History.mem_of {h : History} {subscriptionId : SubscriptionId} {x : ChargeKind × Charge} :
    x ∈ h.of subscriptionId ↔ x ∈ h ∧ x.2.subscriptionId = subscriptionId := by
  simp [History.of]

inductive Moves : AgentSubscription → AgentSubscription → History → Prop
  | cancel {r : AgentSubscription} (now : DateTime) (hopen : r.status ≠ .cancelled) : Moves r (r.cancel now) []
  | fail {r : AgentSubscription} (now retryAt : DateTime) (hopen : r.status ≠ .cancelled) :
      Moves r (r.fail now retryAt) []
  | advance {r : AgentSubscription} (now periodEnd : DateTime) (txId : Wallet.TxId) (hopen : r.status ≠ .cancelled)
      (hperiod : advancePeriod r.currentPeriodEnd r.billingInterval = .ok periodEnd) :
      Moves r (r.advance now periodEnd txId) [(.renewal, billingCharge r periodEnd txId)]
  | reactivate {r : AgentSubscription} (product : SubscriptionProduct) (roomId : Option RoomId)
      (now periodEnd : DateTime) (txId : Wallet.TxId) (hcancelled : r.status = .cancelled) :
      Moves r (r.reactivate roomId now periodEnd txId)
        [(.activation, reactivationCharge r product now periodEnd txId)]

structure AgentSubscription.StatusFits (r : AgentSubscription) : Prop where
  pastDue : r.status = .pastDue ↔ r.status ≠ .cancelled ∧
    (r.consecutiveFailedAttempts = 1 ∨ r.consecutiveFailedAttempts = 2)
  active : r.status = .active ↔ r.status ≠ .cancelled ∧ r.consecutiveFailedAttempts = 0
  third : r.consecutiveFailedAttempts = 3 → r.status = .cancelled
  most : r.consecutiveFailedAttempts ≤ 3

/-- A renewal begins where the period before it ended, and ends one interval later. -/
def Continues (interval : BillingInterval) (x y : ChargeKind × Charge) : Prop :=
  y.1 = .renewal → y.2.periodStart = x.2.periodEnd ∧ advancePeriod x.2.periodEnd interval = .ok y.2.periodEnd

/-- The charges of a subscription: an activation first, each renewal on from the charge before it and under a key of its own, and the last one for the current period. -/
structure InOrder (r : AgentSubscription) (h : History) : Prop where
  opened : ∀ x ∈ h.head?, x.1 = .activation
  contiguous : h.IsChain (Continues r.billingInterval)
  distinct : ((h.filter (·.1 = .renewal)).map (·.2.cycle)).Nodup
  current : ∃ x ∈ h.getLast?, x.2.periodStart = r.currentPeriodStart ∧ x.2.periodEnd = r.currentPeriodEnd

theorem Moves.subscriptionId {r r' : AgentSubscription} {new : History} (h : Moves r r' new) :
    r'.subscriptionId = r.subscriptionId ∧ ∀ x ∈ new, x.2.subscriptionId = r.subscriptionId := by
  cases h with
  | cancel => exact ⟨rfl, by simp⟩
  | fail now retryAt =>
    refine ⟨?_, by simp⟩
    rw [AgentSubscription.fail]
    split <;> rfl
  | advance => exact ⟨rfl, by simp [billingCharge]⟩
  | reactivate => exact ⟨rfl, by simp [reactivationCharge]⟩

theorem AgentSubscription.StatusFits.moves {r r' : AgentSubscription} {new : History} (h : r.StatusFits)
    (hmove : Moves r r' new) : r'.StatusFits := by
  cases hmove with
  | cancel now hopen =>
    exact ⟨by simp [AgentSubscription.cancel], by simp [AgentSubscription.cancel], fun _ => rfl, h.most⟩
  | fail now retryAt hopen =>
    -- a subscription that is not cancelled has failed at most twice before
    have hfew : r.consecutiveFailedAttempts ≤ 2 := by
      have hmost := h.most
      by_contra hmany
      exact hopen (h.third (by omega))
    rw [AgentSubscription.fail]
    split
    · rename_i hlast
      rw [maxFailedBillingAttempts] at hlast
      exact ⟨by simp, by simp, fun _ => rfl, by simp only; omega⟩
    · rename_i hnot
      rw [maxFailedBillingAttempts] at hnot
      refine ⟨?_, by simp, fun hthird => absurd hthird ?_, ?_⟩
      · simp only [ne_eq, reduceCtorEq, not_false_eq_true, true_and, true_iff]
        omega
      · simp only
        omega
      · simp only
        omega
  | advance => exact ⟨by simp [AgentSubscription.advance], by simp [AgentSubscription.advance],
      by simp [AgentSubscription.advance], by simp [AgentSubscription.advance]⟩
  | reactivate => exact ⟨by simp [AgentSubscription.reactivate], by simp [AgentSubscription.reactivate],
      by simp [AgentSubscription.reactivate], by simp [AgentSubscription.reactivate]⟩

section Order

variable {r r' : AgentSubscription} {h : History}

theorem InOrder.congr (horder : InOrder r h) (hinterval : r'.billingInterval = r.billingInterval)
    (hstart : r'.currentPeriodStart = r.currentPeriodStart) (hend : r'.currentPeriodEnd = r.currentPeriodEnd) :
    InOrder r' h := by
  refine ⟨horder.opened, hinterval ▸ horder.contiguous, horder.distinct, ?_⟩
  rw [hstart, hend]
  exact horder.current

theorem InOrder.opened_append (horder : InOrder r h) (new : History) : ∀ x ∈ (h ++ new).head?, x.1 = .activation := by
  intro x hx
  obtain ⟨last, hlast, -⟩ := horder.current
  have hne : h ≠ [] := List.ne_nil_of_mem (List.mem_of_getLast? hlast)
  rw [List.head?_append_of_ne_nil h hne] at hx
  exact horder.opened x hx

theorem InOrder.first {c : Charge} (hstart : c.periodStart = r.currentPeriodStart)
    (hend : c.periodEnd = r.currentPeriodEnd) : InOrder r [(.activation, c)] :=
  ⟨by simp, .singleton _, by simp, _, rfl, hstart, hend⟩

theorem InOrder.activate {c : Charge} (horder : InOrder r h) (hinterval : r'.billingInterval = r.billingInterval)
    (hstart : c.periodStart = r'.currentPeriodStart) (hend : c.periodEnd = r'.currentPeriodEnd) :
    InOrder r' (h ++ [(.activation, c)]) := by
  refine ⟨horder.opened_append _, ?_, ?_, (.activation, c), by simp, hstart, hend⟩
  · refine (hinterval ▸ horder.contiguous).append (.singleton _) ?_
    rintro x - y hy hrenewal
    obtain rfl := Option.some.inj hy
    cases hrenewal
  · rw [List.filter_append]
    simpa using horder.distinct

theorem InOrder.renew {periodEnd : DateTime} {c : Charge} (horder : InOrder r h)
    (hinterval : r'.billingInterval = r.billingInterval) (hfrom : c.periodStart = r.currentPeriodEnd)
    (hperiod : advancePeriod r.currentPeriodEnd r.billingInterval = .ok periodEnd) (hto : c.periodEnd = periodEnd)
    (hstart : r'.currentPeriodStart = r.currentPeriodEnd) (hend : r'.currentPeriodEnd = periodEnd)
    (hnew : ∀ x ∈ h, x.1 = .renewal → x.2.cycle ≠ c.cycle) : InOrder r' (h ++ [(.renewal, c)]) := by
  obtain ⟨last, hlast, -, hlastEnd⟩ := horder.current
  refine ⟨horder.opened_append _, ?_, ?_, (.renewal, c), by simp, hfrom.trans hstart.symm, hto.trans hend.symm⟩
  · refine (hinterval ▸ horder.contiguous).append (.singleton _) ?_
    rintro x hx y hy -
    obtain rfl := Option.some.inj (hlast.symm.trans hx)
    obtain rfl := Option.some.inj hy
    rw [hlastEnd, hinterval]
    exact ⟨hfrom, hto ▸ hperiod⟩
  · rw [List.filter_append, List.map_append]
    refine List.Nodup.append horder.distinct (by simp) ?_
    intro cycle hold hcycle
    obtain ⟨x, hx, rfl⟩ := List.mem_map.mp hold
    obtain ⟨hmem, hrenewal⟩ := List.mem_filter.mp hx
    exact hnew x hmem (of_decide_eq_true hrenewal) (by simpa using hcycle)

/-- A move keeps the charges in order, if a renewal is under a key that no renewal was under. -/
theorem InOrder.moves {new : History} (horder : InOrder r h) (hmove : Moves r r' new)
    (hnew : ∀ y ∈ new, y.1 = .renewal → ∀ x ∈ h, x.1 = .renewal → x.2.cycle ≠ y.2.cycle) :
    InOrder r' (h ++ new) := by
  cases hmove with
  | cancel =>
    rw [List.append_nil]
    exact horder.congr rfl rfl rfl
  | fail now retryAt =>
    rw [List.append_nil, AgentSubscription.fail]
    split <;> exact horder.congr rfl rfl rfl
  | advance now periodEnd txId hopen hperiod =>
    exact horder.renew rfl rfl hperiod rfl rfl rfl (hnew _ (List.mem_singleton_self _) rfl)
  | reactivate product roomId now periodEnd txId => exact horder.activate rfl rfl rfl

end Order

end BotCord.Subscriptions
