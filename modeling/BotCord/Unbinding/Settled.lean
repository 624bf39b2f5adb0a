import BotCord.Subscriptions.Billing
import BotCord.Subscriptions.Changes
import BotCord.Unbinding.Hub

/-!
# What an unbinding leaves

After an unbinding no later billing should charge or credit the agent for a subscription of before. The guard looks for active subscriptions under active products, and `_cancel_agent_subscriptions` for active ones: a charge that fails takes a subscription out of both, and archiving a product takes its subscriptions out of the first.
-/

namespace BotCord.Unbinding

open Transaction
open Subscriptions
open Delivery (column)

/-- The agent owes nothing, and nothing is owed to it. -/
structure Free (s : Store) (agentId : AgentId) : Prop where
  wallets : ∀ w ∈ s.wallet.wallets, w.ownerId = agentId → w.availableBalanceMinor = 0 ∧ w.lockedBalanceMinor = 0
  topups : ∀ t ∈ s.wallet.topups, t.ownerId = agentId → t.status ≠ .pending
  withdrawals : ∀ w ∈ s.wallet.withdrawals, w.ownerId = agentId → ¬ w.Open
  attempts : ∀ a ∈ s.attempts, a.status = .pending →
    ∀ r ∈ s.subscriptions, r.subscriptionId = a.subscriptionId → ¬ Involves agentId r
  own : ∀ r ∈ s.subscriptions, r.subscriberAgentId = agentId → r.status = .cancelled
  sold : ∀ p ∈ s.products, Sells agentId p → ∀ r ∈ s.subscriptions, r.productId = p.productId → r.status = .cancelled

def Severed (agentId : AgentId) (subscriptionId : SubscriptionId) : List Event → Prop
  | [] => False
  | .unbound other :: before => other = agentId ∨ Severed agentId subscriptionId before
  | .made other :: before => other ≠ subscriptionId ∧ Severed agentId subscriptionId before
  | .billed _ :: before => Severed agentId subscriptionId before

/-- No billing charged or credited an agent for a subscription of before it was unbound. -/
def Settled : List Event → Prop
  | [] => True
  | .billed c :: before => (¬ Severed c.subscriberAgentId c.subscriptionId before ∧
      ¬ Severed c.providerAgentId c.subscriptionId before) ∧ Settled before
  | .unbound _ :: before | .made _ :: before => Settled before

/-- Between two states the agent was unbound. -/
def Hub.Unbinds (d d' : Hub) (agentId : AgentId) : Prop := ∃ events, d'.log = events ++ d.log ∧ .unbound agentId ∈ events

instance decidableSevered (agentId : AgentId) (subscriptionId : SubscriptionId) :
    DecidablePred (Severed agentId subscriptionId)
  | [] => isFalse id
  | .unbound _ :: before =>
    have := decidableSevered agentId subscriptionId before
    inferInstanceAs (Decidable (_ ∨ _))
  | .made _ :: before =>
    have := decidableSevered agentId subscriptionId before
    inferInstanceAs (Decidable (_ ∧ _))
  | .billed _ :: before => decidableSevered agentId subscriptionId before

instance decidableSettled : DecidablePred Settled
  | [] => isTrue trivial
  | .billed _ :: before =>
    have := decidableSettled before
    inferInstanceAs (Decidable ((_ ∧ _) ∧ Settled before))
  | .unbound _ :: before | .made _ :: before => decidableSettled before

/-- At the commit the guard would still pass, every subscription of the agent that is not cancelled was loaded, and every one that is paid for a product of the agent is active, as is the product. -/
def Detachment.Clear (u : Detachment) (s : Store) (agentId : AgentId) : Prop :=
  (∀ check ∈ checks, check.Passes (u.cancel s) agentId) ∧
    (∀ r ∈ s.subscriptions, r.subscriberAgentId = agentId → r.status ≠ .cancelled →
      r.subscriptionId ∈ u.cancelled.map AgentSubscription.subscriptionId) ∧
    ∀ p ∈ s.products, Sells agentId p → ∀ r ∈ (u.cancel s).subscriptions, r.productId = p.productId →
      r.status ≠ .cancelled → p.status = .active ∧ r.status = .active
deriving Decidable

/-- What a call finds when it commits. -/
def Hub.Meets (d : Hub) : Call → Prop
  | .detach u => ∀ agentId ∈ u.agents, u.Clear d.store agentId
  | .bill loaded seen _ _ => ∀ e ∈ d.log.take (d.log.length - seen),
      e ≠ .unbound loaded.subscriberAgentId ∧ e ≠ .unbound loaded.providerAgentId
  | _ => True

/-- The condition on a step. -/
def Hub.Careful (d : Hub) : Action → Prop
  | .next i => ∀ call ∈ d.calls i, d.Meets call
  | _ => True

instance (d : Hub) : DecidablePred d.Meets := fun _ => by
  unfold Hub.Meets
  split <;> infer_instance

instance (d : Hub) : DecidablePred d.Careful := fun _ => by
  unfold Hub.Careful
  split <;> infer_instance

structure SameParties (r r' : AgentSubscription) : Prop where
  subscriptionId : r'.subscriptionId = r.subscriptionId
  productId : r'.productId = r.productId
  subscriberAgentId : r'.subscriberAgentId = r.subscriberAgentId
  providerAgentId : r'.providerAgentId = r.providerAgentId

def Offers (s : Store) (productId : ProductId) (providerAgentId : AgentId) : Prop :=
  ∃ p ∈ s.products, p.productId = productId ∧ p.providerAgentId = providerAgentId

def Call.Held (s : Store) (log : List Event) : Call → Prop
  | .unbind u _ _ | .detach u => ∀ loaded ∈ u.cancelled, loaded.status = .active
  | .subscribe _ product _ _ _ => Offers s product.productId product.providerAgentId
  | .cancel _ _ => True
  | .bill loaded seen _ _ => (∃ r ∈ s.subscriptions, SameParties loaded r) ∧
      ∃ since before, log = since ++ before ∧ before.length = seen ∧ (loaded.status ≠ .cancelled →
        ∀ agentId, Involves agentId loaded → ¬ Severed agentId loaded.subscriptionId before)

/-- A subscription of before the unbinding of one of its agents is cancelled. -/
def Cut (log : List Event) (r : AgentSubscription) : Prop :=
  ∀ agentId, Involves agentId r → Severed agentId r.subscriptionId log → r.status = .cancelled

structure Inv (d : Hub) : Prop where
  ids : (d.store.subscriptions.map AgentSubscription.subscriptionId).Nodup
  offered : ∀ r ∈ d.store.subscriptions, Offers d.store r.productId r.providerAgentId
  cut : ∀ r ∈ d.store.subscriptions, Cut d.log r
  settled : Settled d.log
  held : ∀ i call, d.calls i = some call → call.Held d.store d.log

structure Turn (s s' : Store) (log log' : List Event) : Prop where
  products : ∀ productId agentId, Offers s productId agentId → Offers s' productId agentId
  ids : (s'.subscriptions.map AgentSubscription.subscriptionId).Nodup
  kept : ∀ r ∈ s.subscriptions, ∃ r' ∈ s'.subscriptions, SameParties r r'
  offered : ∀ r ∈ s'.subscriptions, Offers s' r.productId r.providerAgentId
  cut : ∀ r ∈ s'.subscriptions, Cut log' r
  log : ∃ events, log' = events ++ log ∧ ∀ agentId, .unbound agentId ∈ events → Free s' agentId
  settled : Settled log'

variable {d d' : Hub} {s s' v : Store} {log log' : List Event} {i : ℕ} {a : Action} {r r' loaded changed : AgentSubscription}
  {u : Detachment} {call : Call} {agentId : AgentId} {subscriptionId : SubscriptionId}

theorem SameParties.refl (r : AgentSubscription) : SameParties r r := ⟨rfl, rfl, rfl, rfl⟩

theorem SameParties.trans {r'' : AgentSubscription} (h : SameParties r r') (h' : SameParties r' r'') : SameParties r r'' :=
  ⟨h'.subscriptionId.trans h.subscriptionId, h'.productId.trans h.productId,
    h'.subscriberAgentId.trans h.subscriberAgentId, h'.providerAgentId.trans h.providerAgentId⟩

theorem SameParties.involves (h : SameParties r r') : Involves agentId r' ↔ Involves agentId r := by
  rw [Involves, Involves, h.subscriberAgentId, h.providerAgentId]

theorem severed_append {events : List Event} (h : Severed agentId subscriptionId (events ++ log)) :
    .unbound agentId ∈ events ∨ Severed agentId subscriptionId log := by
  induction events with
  | nil => exact .inr h
  | cons e rest ih =>
    cases e with
    | unbound other =>
      rcases h with rfl | h
      · exact .inl List.mem_cons_self
      · exact (ih h).imp_left (List.mem_cons_of_mem _)
    | made other => exact (ih h.2).imp_left (List.mem_cons_of_mem _)
    | billed c => exact (ih h).imp_left (List.mem_cons_of_mem _)

theorem not_severed_made : ¬ Severed agentId subscriptionId (.made subscriptionId :: log) := fun h => h.1 rfl

theorem billed_ne (c : Charge) (agentId : AgentId) : Event.billed c ≠ .unbound agentId := nofun

theorem made_ne (c : Charge) (agentId : AgentId) : Event.made c.subscriptionId ≠ .unbound agentId := nofun

theorem settled_unbound (agents : List AgentId) (h : Settled log) : Settled (agents.map .unbound ++ log) := by
  induction agents with
  | nil => exact h
  | cons agentId rest ih => exact ih

theorem column_self {α : Type} [DecidableEq α] (loaded current : α) : column loaded current current = current := by
  rw [column, ite_self]

theorem save_self (loaded r : AgentSubscription) : save loaded r r = r := by
  simp only [save, column_self]

theorem sameParties_save (loaded changed r : AgentSubscription) : SameParties r (save loaded changed r) := ⟨rfl, rfl, rfl, rfl⟩

/-- At most the row of one subscription was rewritten, and charges were made. -/
structure Rewrites (p : AgentSubscription → Prop) (loaded : AgentSubscription) (s v : Store) (charges : List Charge) : Prop where
  products : v.products = s.products
  rows : v.subscriptions = s.subscriptions ∨ ∃ changed, p changed ∧ changed.subscriptionId = loaded.subscriptionId ∧
    v.subscriptions = (s.putSubscription changed).subscriptions
  charges : v.charges = s.charges ++ charges

section Rewrites

variable {p : AgentSubscription → Prop} {charges : List Charge}

theorem Rewrites.refl (p : AgentSubscription → Prop) (loaded : AgentSubscription) (s : Store) : Rewrites p loaded s s [] :=
  ⟨rfl, .inl rfl, (List.append_nil _).symm⟩

theorem ids_saveLoaded (loaded : AgentSubscription) (s v : Store) :
    (saveLoaded loaded s v).subscriptions.map AgentSubscription.subscriptionId =
      v.subscriptions.map AgentSubscription.subscriptionId := by
  unfold saveLoaded
  rw [List.map_map]
  apply List.map_congr_left
  intro x hx
  show AgentSubscription.subscriptionId (if _ then _ else _) = _
  split
  · cases hfind : s.findSubscription x.subscriptionId with
    | none => rfl
    | some current =>
      have hid : current.subscriptionId = x.subscriptionId := by simpa using List.find?_some hfind
      exact hid
  · rfl

theorem Rewrites.ids (h : Rewrites p loaded s v charges) : v.subscriptions.map AgentSubscription.subscriptionId =
    s.subscriptions.map AgentSubscription.subscriptionId := by
  rcases h.rows with hsame | ⟨changed, -, -, hrows⟩
  · rw [hsame]
  · rw [hrows, ids_putSubscription]

theorem findSubscription_of_mem (hids : (s.subscriptions.map AgentSubscription.subscriptionId).Nodup)
    (hr : r ∈ s.subscriptions) : s.findSubscription r.subscriptionId = some r :=
  Table.find?_eq_some_of_mem hids hr

theorem Rewrites.mem_saveLoaded (h : Rewrites p loaded s v charges)
    (hids : (s.subscriptions.map AgentSubscription.subscriptionId).Nodup)
    (hr' : r' ∈ (saveLoaded loaded s v).subscriptions) : ∃ r ∈ s.subscriptions,
      r' = r ∨ r.subscriptionId = loaded.subscriptionId ∧ ∃ changed, p changed ∧ r' = save loaded changed r := by
  obtain ⟨x, hx, rfl⟩ := List.mem_map.mp hr'
  have hold : x ∈ s.subscriptions → ∃ r ∈ s.subscriptions,
      (if x.subscriptionId = loaded.subscriptionId then
        ((s.findSubscription x.subscriptionId).map (save loaded x)).getD x else x) = r := by
    intro hmem
    refine ⟨x, hmem, ?_⟩
    split
    · rw [findSubscription_of_mem hids hmem, Option.map_some, Option.getD_some, save_self]
    · rfl
  rcases h.rows with hsame | ⟨changed, hp, hid, hrows⟩
  · obtain ⟨r, hr, heq⟩ := hold (hsame ▸ hx)
    exact ⟨r, hr, .inl heq⟩
  · rw [hrows] at hx
    obtain ⟨y, hy, hxy⟩ := Table.mem_update.mp hx
    split at hxy
    · rename_i hyid
      subst hxy
      refine ⟨y, hy, .inr ⟨hyid.trans hid, changed, hp, ?_⟩⟩
      rw [if_pos hid, ← hyid, findSubscription_of_mem hids hy, Option.map_some, Option.getD_some]
    · subst hxy
      obtain ⟨r, hr, heq⟩ := hold hy
      exact ⟨r, hr, .inl heq⟩

end Rewrites

/-! ### Turns -/

theorem Cut.append {events : List Event} (h : Cut log r) (hnone : ∀ agentId, .unbound agentId ∉ events) :
    Cut (events ++ log) r := by
  intro agentId hinvolves hsevered
  rcases severed_append hsevered with hunbound | hsevered
  · exact absurd hunbound (hnone agentId)
  · exact h agentId hinvolves hsevered

theorem Cut.status (h : Cut log r) (hsame : SameParties r r') (hstatus : r'.status = r.status ∨ r'.status = .cancelled) :
    Cut log r' := by
  intro agentId hinvolves hsevered
  rcases hstatus with hkept | hcancelled
  · rw [hsame.subscriptionId] at hsevered
    exact hkept.trans (h agentId (hsame.involves.mp hinvolves) hsevered)
  · exact hcancelled

theorem unbound_not_mem_map {charges : List Charge} {event : Charge → Event} (h : ∀ c agentId, event c ≠ .unbound agentId)
    (agentId : AgentId) : .unbound agentId ∉ charges.map event := by
  intro hmem
  obtain ⟨c, -, heq⟩ := List.mem_map.mp hmem
  exact h c agentId heq

theorem Inv.kept (h : Inv d) (hids : s.subscriptions.map AgentSubscription.subscriptionId =
      d.store.subscriptions.map AgentSubscription.subscriptionId)
    (hrows : ∀ r' ∈ s.subscriptions, ∃ r ∈ d.store.subscriptions, SameParties r r') :
    ∀ r ∈ d.store.subscriptions, ∃ r' ∈ s.subscriptions, SameParties r r' := by
  intro r hr
  have hid : r.subscriptionId ∈ s.subscriptions.map AgentSubscription.subscriptionId :=
    hids ▸ List.mem_map_of_mem hr
  obtain ⟨r', hr', hid'⟩ := List.mem_map.mp hid
  obtain ⟨x, hx, hsame⟩ := hrows r' hr'
  obtain rfl : x = r := List.inj_on_of_nodup_map h.ids hx hr (hsame.subscriptionId.symm.trans hid')
  exact ⟨r', hr', hsame⟩

theorem Inv.turn (h : Inv d) (events : List Event) (hproducts : ∀ p a, Offers d.store p a → Offers s p a)
    (hids : s.subscriptions.map AgentSubscription.subscriptionId =
      d.store.subscriptions.map AgentSubscription.subscriptionId)
    (hrows : ∀ r' ∈ s.subscriptions, ∃ r ∈ d.store.subscriptions, SameParties r r' ∧
      (r'.status = r.status ∨ r'.status = .cancelled ∨ Cut (events ++ d.log) r'))
    (hnone : ∀ agentId, .unbound agentId ∉ events) (hsettled : Settled (events ++ d.log)) :
    Turn d.store s d.log (events ++ d.log) := by
  refine ⟨hproducts, by rw [hids]; exact h.ids, h.kept hids fun r' hr' => ?_, fun r' hr' => ?_, fun r' hr' => ?_,
    ⟨events, rfl, fun agentId hunbound => absurd hunbound (hnone agentId)⟩, hsettled⟩
  · obtain ⟨r, hr, hsame, -⟩ := hrows r' hr'
    exact ⟨r, hr, hsame⟩
  · obtain ⟨r, hr, hsame, -⟩ := hrows r' hr'
    rw [hsame.productId, hsame.providerAgentId]
    exact hproducts _ _ (h.offered r hr)
  · obtain ⟨r, hr, hsame, hkept | hcancelled | hcut⟩ := hrows r' hr'
    · exact ((h.cut r hr).append hnone).status hsame (.inl hkept)
    · exact fun _ _ _ => hcancelled
    · exact hcut

theorem Inv.turn_quiet (h : Inv d) (hproducts : ∀ p a, Offers d.store p a → Offers s p a)
    (hrows : s.subscriptions = d.store.subscriptions) : Turn d.store s d.log d.log := by
  refine h.turn [] hproducts (by rw [hrows]) (fun r hr => ⟨r, hrows ▸ hr, .refl r, .inl rfl⟩) (fun _ => ?_) h.settled
  exact List.not_mem_nil

theorem Inv.turn_open {opened : AgentSubscription} {product : SubscriptionProduct} (h : Inv d) (hintegral : s.Integral)
    (hproducts : s.products = d.store.products) (hoffers : Offers d.store product.productId product.providerAgentId)
    (hproduct : opened.productId = product.productId) (hprovider : opened.providerAgentId = product.providerAgentId)
    (hid : opened.subscriptionId = subscriptionId) (hrows : s.subscriptions = d.store.subscriptions ++ [opened]) :
    Turn d.store s d.log ([.made subscriptionId] ++ d.log) := by
  have hoffered : ∀ p a, Offers d.store p a → Offers s p a := by
    intro p a hoffers
    rw [Offers, hproducts]
    exact hoffers
  have hnone : ∀ agentId, .unbound agentId ∉ [Event.made subscriptionId] := by
    intro agentId hmem
    cases List.mem_singleton.mp hmem
  have hcases : ∀ r ∈ s.subscriptions, r ∈ d.store.subscriptions ∨ r = opened := by
    intro r hr
    rw [hrows, List.mem_append, List.mem_singleton] at hr
    exact hr
  refine ⟨hoffered, hintegral.subscription_ids, fun r hr => ⟨r, ?_, .refl r⟩, fun r hr => ?_, fun r hr => ?_,
    ⟨_, rfl, fun agentId hunbound => absurd hunbound (hnone agentId)⟩, h.settled⟩
  · rw [hrows]
    exact List.mem_append_left _ hr
  · rcases hcases r hr with hold | rfl
    · exact hoffered _ _ (h.offered r hold)
    · rw [hproduct, hprovider]
      exact hoffered _ _ hoffers
  · rcases hcases r hr with hold | rfl
    · exact (h.cut r hold).append hnone
    · intro agentId _ hsevered
      rw [hid] at hsevered
      exact absurd hsevered not_severed_made

section Commit

variable {p : AgentSubscription → Prop} {charges : List Charge} {event : Charge → Event} {now : DateTime}

theorem Inv.turn_save (h : Inv d) (hrewrites : Rewrites p loaded d.store v charges)
    (hevent : ∀ c agentId, event c ≠ .unbound agentId)
    (hchanged : ∀ changed, p changed → changed.status = loaded.status ∨ changed.status = .cancelled ∨
      ∀ agentId, ∀ r ∈ d.store.subscriptions, r.subscriptionId = loaded.subscriptionId → Involves agentId r →
        ¬ Severed agentId loaded.subscriptionId (charges.map event ++ d.log))
    (hsettled : Settled (charges.map event ++ d.log)) :
    Turn d.store (d.settle i (saveLoaded loaded d.store v) event).store d.log
      (d.settle i (saveLoaded loaded d.store v) event).log := by
  have hcharges : (d.settle i (saveLoaded loaded d.store v) event).log = charges.map event ++ d.log := by
    show (v.charges.drop d.store.charges.length).map event ++ d.log = _
    rw [hrewrites.charges, List.drop_left]
  rw [hcharges]
  refine h.turn _ (fun p a hoffers => ?_) ((ids_saveLoaded ..).trans hrewrites.ids) (fun r' hr' => ?_)
    (unbound_not_mem_map hevent) hsettled
  · obtain ⟨x, hx, hid⟩ := hoffers
    have hx : x ∈ (saveLoaded loaded d.store v).products := hrewrites.products.symm ▸ hx
    exact ⟨x, hx, hid⟩
  · obtain ⟨r, hr, rfl | ⟨hid, changed, hp, rfl⟩⟩ := hrewrites.mem_saveLoaded h.ids hr'
    · exact ⟨r', hr, .refl r', .inl rfl⟩
    · refine ⟨r, hr, sameParties_save loaded changed r, ?_⟩
      rcases hchanged changed hp with hsame | hcancelled | hfree
      · exact .inl (if_pos hsame.symm)
      · by_cases hloaded : loaded.status = changed.status
        · exact .inl (if_pos hloaded)
        · exact .inr (.inl ((if_neg hloaded).trans hcancelled))
      · refine .inr (.inr fun agentId hinvolves hsevered => ?_)
        have hsame := sameParties_save loaded changed r
        rw [hsame.subscriptionId, hid] at hsevered
        exact absurd hsevered (hfree agentId r hr hid (hsame.involves.mp hinvolves))

theorem commit_cases (x : Tx Unit) (s : Store) :
    commit x s = s ∨ ∃ τ, exec x ⟨s, s⟩ = (.ok (), τ) ∧ commit x s = τ.view ∧ τ.view.Integral := by
  rcases atomically_flush_cases x Store.constraints s with hsame | ⟨τ, hrun, hview, hok⟩
  · exact .inl hsame
  · exact .inr ⟨τ, hrun, hview, Store.integral_of_constraints hok⟩

variable {τ : Session Store}

/-! ### Commits -/

variable {draw : BillingDraw}

theorem chargeSubscription_rewrites {outcome : Outcome}
    (h : exec (chargeSubscription loaded now draw) ⟨s, s⟩ = (.ok outcome, τ)) : ∃ charges,
      Rewrites (fun _ => loaded.status ≠ .cancelled) loaded s τ.view charges ∧ ∀ c ∈ charges, loaded.status ≠ .cancelled ∧
        c.subscriptionId = loaded.subscriptionId ∧ c.subscriberAgentId = loaded.subscriberAgentId ∧
          c.providerAgentId = loaded.providerAgentId := by
  cases chargeSubscription_ok h with
  | skipped hsame =>
    subst hsame
    exact ⟨[], .refl _ _ _, by simp⟩
  | cancelled hopen hcommitted hok hmembers =>
    obtain ⟨members, hview⟩ := hmembers
    rw [hview]
    exact ⟨[], ⟨rfl, .inr ⟨loaded.cancel now, hopen, rfl, rfl⟩, (List.append_nil _).symm⟩, by simp⟩
  | failed row started w retryAt reason hchargeable hattempted hrows hcommitted hok hmembers =>
    obtain ⟨attempts, rfl⟩ := hattempted.onlyAttempts
    obtain ⟨members, hview⟩ := hmembers
    have hid : (loaded.fail now retryAt).subscriptionId = loaded.subscriptionId :=
      congrArg (fun account => account.1.1) (loaded.fail_account now retryAt).symm
    rw [hview]
    exact ⟨[], ⟨rfl, .inr ⟨_, hchargeable.1.1, hid, rfl⟩, (List.append_nil _).symm⟩, by simp⟩
  | charged row started d tx m periodEnd hchargeable hattempted hadvance htransfer hcommitted hok hview =>
    obtain ⟨attempts, rfl⟩ := hattempted.onlyAttempts
    obtain ⟨-, hmoved⟩ := createTransfer_given (σ := ⟨s, { s with attempts }⟩) (fun _ ht => ht)
      (given_billingTransfer loaded) htransfer
    obtain ⟨w, hwallet⟩ := tables_after hmoved
    rw [hview, hwallet]
    refine ⟨[billingCharge loaded periodEnd tx.txId],
      ⟨rfl, .inr ⟨loaded.advance now periodEnd tx.txId, hchargeable.1.1, rfl, rfl⟩, rfl⟩, fun c hc => ?_⟩
    obtain rfl := List.mem_singleton.mp hc
    exact ⟨hchargeable.1.1, rfl, rfl, rfl⟩

theorem cancelLoaded_rewrites (h : exec (cancelLoaded loaded now) ⟨s, s⟩ = (.ok (), τ)) :
    Rewrites (·.status = .cancelled) loaded s τ.view [] := by
  rw [cancelLoaded, exec_modifyView_bind] at h
  obtain ⟨-, members, hview⟩ := revokeSubscriptionRoomAccess_ok h
  rw [hview]
  exact ⟨rfl, .inr ⟨loaded.cancel now, rfl, rfl, rfl⟩, (List.append_nil _).symm⟩

variable {subscription : AgentSubscription}

theorem moveToRoom_rewrites {roomId : Option RoomId}
    (h : exec (moveToRoom loaded roomId) ⟨s, s⟩ = (.ok subscription, τ)) :
    Rewrites (·.status = loaded.status) loaded s τ.view [] := by
  rcases moveToRoom_ok h with hsame | hmoved
  · rw [hsame]
    exact .refl _ _ _
  · rw [hmoved]
    exact ⟨rfl, .inr ⟨{ loaded with roomId }, rfl, rfl, rfl⟩, (List.append_nil _).symm⟩

variable {product : SubscriptionProduct}

theorem reactivateSubscription_rewrites {r : SubscribeRequest} {draw : Wallet.Draw}
    (h : exec (reactivateSubscription loaded product r now draw) ⟨s, s⟩ = (.ok subscription, τ)) :
    ∃ c, c.subscriptionId = loaded.subscriptionId ∧ Rewrites (fun _ => True) loaded s τ.view [c] := by
  obtain ⟨periodEnd, tx, m, -, htransfer, hmembers⟩ := reactivateSubscription_ok h
  obtain ⟨-, hmoved⟩ := createTransfer_given (σ := ⟨s, s⟩) (fun _ ht => ht) (given_reactivationTransfer ..) htransfer
  obtain ⟨w, hwallet⟩ := tables_after hmoved
  obtain ⟨members, hview⟩ := hmembers
  rw [hview, hwallet]
  exact ⟨reactivationCharge loaded product now periodEnd tx.txId, rfl, rfl,
    .inr ⟨loaded.reactivate r.roomId now periodEnd tx.txId, trivial, rfl, rfl⟩, rfl⟩

/-- Opening a subscription adds its row and its first charge, or leaves what there was. -/
theorem openSubscription_adds {r : SubscribeRequest} {draw : Draw}
    (h : exec (openSubscription product r now draw) ⟨s, s⟩ = (.ok subscription, τ)) : τ.view = s ∨
      τ.view.products = s.products ∧ ∃ opened c, opened.subscriptionId = c.subscriptionId ∧
        opened.productId = product.productId ∧ opened.providerAgentId = product.providerAgentId ∧
          τ.view.subscriptions = s.subscriptions ++ [opened] ∧ τ.view.charges = s.charges ++ [c] := by
  obtain ⟨periodEnd, tx, m, -, htransfer, hopened⟩ := openSubscription_ok h
  obtain ⟨hcommitted, hmoved⟩ := createTransfer_given (σ := ⟨s, s⟩) (fun _ ht => ht) (given_firstTransfer ..) htransfer
  rcases hopened with hlost | ⟨-, members, hview⟩
  · exact .inl (hlost.trans hcommitted)
  · obtain ⟨w, hwallet⟩ := tables_after hmoved
    rw [hview, hwallet]
    exact .inr ⟨rfl, newSubscription product r now periodEnd draw.subscriptionId tx.txId,
      firstCharge product r now periodEnd draw.subscriptionId tx.txId, rfl, rfl, rfl, rfl, rfl⟩

theorem settled_billed (hfree : ∀ c ∈ charges, ¬ Severed c.subscriberAgentId c.subscriptionId log ∧
    ¬ Severed c.providerAgentId c.subscriptionId log) (h : Settled log) : Settled (charges.map .billed ++ log) := by
  induction charges with
  | nil => exact h
  | cons c rest ih =>
    obtain ⟨hc, hrest⟩ := List.forall_mem_cons.mp hfree
    refine ⟨⟨fun hsevered => ?_, fun hsevered => ?_⟩, ih hrest⟩
    · rcases severed_append hsevered with hunbound | hsevered
      · exact unbound_not_mem_map billed_ne _ hunbound
      · exact hc.1 hsevered
    · rcases severed_append hsevered with hunbound | hsevered
      · exact unbound_not_mem_map billed_ne _ hunbound
      · exact hc.2 hsevered

theorem settled_made (h : Settled log) : Settled (charges.map (fun c => .made c.subscriptionId) ++ log) := by
  induction charges with
  | nil => exact h
  | cons c rest ih => exact ih

theorem Inv.not_severed {seen : ℕ} (h : Inv d) (hcall : d.calls i = some (.bill loaded seen now draw))
    (hmeets : d.Meets (.bill loaded seen now draw)) (hopen : loaded.status ≠ .cancelled) (hinvolves : Involves agentId loaded) :
    ¬ Severed agentId loaded.subscriptionId d.log := by
  obtain ⟨-, since, before, hlog, hseen, hfree⟩ := h.held i _ hcall
  intro hsevered
  rw [hlog] at hsevered
  rcases severed_append hsevered with hunbound | hsevered
  · have htake : d.log.take (d.log.length - seen) = since := by
      rw [hlog, List.length_append, hseen, Nat.add_sub_cancel, List.take_left]
    obtain ⟨hsubscriber, hprovider⟩ := hmeets _ (htake ▸ hunbound)
    rcases hinvolves with rfl | rfl
    · exact hsubscriber rfl
    · exact hprovider rfl
  · exact hfree hopen agentId hinvolves hsevered

theorem turn_bill {seen : ℕ} (h : Inv d) (hcall : d.calls i = some (.bill loaded seen now draw))
    (hmeets : d.Meets (.bill loaded seen now draw)) :
    Turn d.store (d.next i (.bill loaded seen now draw)).store d.log (d.next i (.bill loaded seen now draw)).log := by
  obtain ⟨charges, hrewrites, hcharges⟩ : ∃ charges, Rewrites (fun _ => loaded.status ≠ .cancelled) loaded d.store
      (commit (void (chargeSubscription loaded now draw)) d.store) charges ∧
        ∀ c ∈ charges, loaded.status ≠ .cancelled ∧ c.subscriptionId = loaded.subscriptionId ∧
          c.subscriberAgentId = loaded.subscriberAgentId ∧ c.providerAgentId = loaded.providerAgentId := by
    rcases commit_cases (void (chargeSubscription loaded now draw)) d.store with hsame | ⟨τ, hrun, hview, -⟩
    · exact ⟨[], hsame.symm ▸ .refl _ _ _, by simp⟩
    · obtain ⟨outcome, hcharge⟩ := exec_void_ok.mp hrun
      exact hview ▸ chargeSubscription_rewrites hcharge
  obtain ⟨⟨row, hrow, hparties⟩, -⟩ := h.held i _ hcall
  refine h.turn_save hrewrites billed_ne (fun _ hopen => .inr (.inr fun agentId r hr hid hinvolves hsevered => ?_))
    (settled_billed (fun c hc => ?_) h.settled)
  · obtain rfl : row = r := List.inj_on_of_nodup_map h.ids hrow hr (hparties.subscriptionId.trans hid.symm)
    rcases severed_append hsevered with hunbound | hsevered
    · exact unbound_not_mem_map billed_ne _ hunbound
    · exact h.not_severed hcall hmeets hopen (hparties.involves.mp hinvolves) hsevered
  · obtain ⟨hopen, hid, hsubscriber, hprovider⟩ := hcharges c hc
    rw [hid, hsubscriber, hprovider]
    exact ⟨h.not_severed hcall hmeets hopen (.inl rfl), h.not_severed hcall hmeets hopen (.inr rfl)⟩

theorem turn_cancel (h : Inv d) (i : ℕ) (loaded : AgentSubscription) (now : DateTime) :
    Turn d.store (d.next i (.cancel loaded now)).store d.log (d.next i (.cancel loaded now)).log := by
  have hrewrites : Rewrites (·.status = .cancelled) loaded d.store (commit (cancelLoaded loaded now) d.store) [] := by
    rcases commit_cases (cancelLoaded loaded now) d.store with hsame | ⟨τ, hrun, hview, -⟩
    · exact hsame.symm ▸ .refl _ _ _
    · exact hview ▸ cancelLoaded_rewrites hrun
  exact h.turn_save hrewrites billed_ne (fun _ hcancelled => .inr (.inl hcancelled)) h.settled

theorem turn_subscribe {r : SubscribeRequest} {current : Option AgentSubscription} {draw : Draw}
    (h : Inv d) (hcall : d.calls i = some (.subscribe r product current now draw)) :
    Turn d.store (d.next i (.subscribe r product current now draw)).store d.log
      (d.next i (.subscribe r product current now draw)).log := by
  rcases commit_cases (void (subscribeLoaded r product now draw current)) d.store with hsame | ⟨τ, hrun, hview, hintegral⟩
  · cases current with
    | none =>
      have hnext : d.next i (.subscribe r product none now draw) = { d.finish i with log := d.log } := by
        show d.settle i (commit _ d.store) _ = _
        rw [hsame, Hub.settle, List.drop_length]
        rfl
      rw [hnext]
      exact h.turn_quiet (fun _ _ => id) rfl
    | some loaded =>
      have hrewrites : Rewrites (fun _ => False) loaded d.store
          (commit (void (subscribeLoaded r product now draw (some loaded))) d.store) [] := hsame.symm ▸ .refl _ _ _
      exact h.turn_save hrewrites made_ne (fun _ hfalse => hfalse.elim) h.settled
  · obtain ⟨subscription, hrun⟩ := exec_void_ok.mp hrun
    cases current with
    | none =>
      rcases openSubscription_adds hrun with hsame | ⟨hproducts, opened, c, hid, hproduct, hprovider, hrows, hcharges⟩
      · have hnext : d.next i (.subscribe r product none now draw) = { d.finish i with log := d.log } := by
          show d.settle i (commit _ d.store) _ = _
          rw [hview, hsame, Hub.settle, List.drop_length]
          rfl
        rw [hnext]
        exact h.turn_quiet (fun _ _ => id) rfl
      · have hlog : (d.next i (.subscribe r product none now draw)).log = [.made c.subscriptionId] ++ d.log := by
          show ((commit _ d.store).charges.drop _).map _ ++ d.log = _
          rw [hview, hcharges, List.drop_left]
          rfl
        rw [hlog, show (d.next i (.subscribe r product none now draw)).store = commit _ d.store from rfl, hview]
        exact h.turn_open hintegral hproducts (h.held i _ hcall) hproduct hprovider hid hrows
    | some loaded =>
      have hrun : exec (if loaded.status = .cancelled then reactivateSubscription loaded product r now draw.wallet
        else moveToRoom loaded r.roomId) ⟨d.store, d.store⟩ = (.ok subscription, τ) := hrun
      split at hrun
      · obtain ⟨c, hid, hrewrites⟩ := reactivateSubscription_rewrites hrun
        rw [← hview] at hrewrites
        refine h.turn_save hrewrites made_ne
          (fun _ _ => .inr (.inr fun agentId x hx hxid hinvolves hsevered => ?_)) (settled_made h.settled)
        rw [← hid] at hsevered
        exact not_severed_made hsevered
      · have hrewrites := moveToRoom_rewrites hrun
        rw [← hview] at hrewrites
        exact h.turn_save hrewrites made_ne (fun _ hkept => .inl hkept) h.settled

end Commit

theorem ids_cancel (u : Detachment) (s : Store) : (u.cancel s).subscriptions.map AgentSubscription.subscriptionId =
    s.subscriptions.map AgentSubscription.subscriptionId := by
  unfold Detachment.cancel
  rw [List.map_map]
  apply List.map_congr_left
  intro r hr
  show AgentSubscription.subscriptionId (Option.getD _ r) = _
  cases u.cancelled.find? (·.subscriptionId = r.subscriptionId) with
  | none => rfl
  | some loaded => rfl

theorem mem_cancel (hactive : ∀ loaded ∈ u.cancelled, loaded.status = .active) (hr' : r' ∈ (u.cancel s).subscriptions) :
    ∃ r ∈ s.subscriptions, SameParties r r' ∧ (r'.status = .cancelled ∨
      r' = r ∧ r.subscriptionId ∉ u.cancelled.map AgentSubscription.subscriptionId) := by
  obtain ⟨r, hr, rfl⟩ := List.mem_map.mp hr'
  refine ⟨r, hr, ?_⟩
  cases hfind : u.cancelled.find? (·.subscriptionId = r.subscriptionId) with
  | none =>
    refine ⟨.refl r, .inr ⟨rfl, fun hmem => ?_⟩⟩
    obtain ⟨loaded, hloaded, hid⟩ := List.mem_map.mp hmem
    exact List.find?_eq_none.mp hfind loaded hloaded (decide_eq_true hid)
  | some loaded =>
    have hstatus : loaded.status ≠ SubscriptionStatus.cancelled := by
      rw [hactive loaded (List.mem_of_find?_eq_some hfind)]
      nofun
    exact ⟨sameParties_save loaded (loaded.cancel u.now) r, .inl (if_neg hstatus)⟩

theorem free_of_clear (hactive : ∀ loaded ∈ u.cancelled, loaded.status = .active) (hclear : u.Clear s agentId) :
    Free (u.cancel s) agentId := by
  obtain ⟨hpasses, hloaded, hsold⟩ := hclear
  have hpasses : ∀ check : Check, check.Passes (u.cancel s) agentId := by
    intro check
    apply hpasses
    cases check <;> decide
  refine ⟨hpasses .wallet, hpasses .topups, hpasses .withdrawals, hpasses .chargeAttempts, fun r' hr' hsubscriber => ?_,
    fun p hp hsells r hr hproduct => ?_⟩
  · obtain ⟨r, hr, hsame, hcancelled | ⟨rfl, hnot⟩⟩ := mem_cancel hactive hr'
    · exact hcancelled
    · by_contra hopen
      exact hnot (hloaded r' hr hsubscriber hopen)
  · by_contra hopen
    obtain ⟨hproductActive, hactive⟩ := hsold p hp hsells r hr hproduct hopen
    exact hpasses .subscribers p hp hsells hproductActive r hr hproduct hactive

theorem unbound_mem_map {agents : List AgentId} : .unbound agentId ∈ agents.map Event.unbound ↔ agentId ∈ agents := by
  simp

theorem turn_detach (h : Inv d) (hcall : d.calls i = some (.detach u)) (hmeets : d.Meets (.detach u)) :
    Turn d.store (d.next i (.detach u)).store d.log (d.next i (.detach u)).log := by
  have hactive : ∀ loaded ∈ u.cancelled, loaded.status = .active := h.held i _ hcall
  have hfree : ∀ agentId ∈ u.agents, Free (u.cancel d.store) agentId := fun agentId hmem =>
    free_of_clear hactive (hmeets agentId hmem)
  have hoffered : ∀ r' ∈ (u.cancel d.store).subscriptions, Offers d.store r'.productId r'.providerAgentId := by
    intro r' hr'
    obtain ⟨r, hr, hsame, -⟩ := mem_cancel hactive hr'
    rw [hsame.productId, hsame.providerAgentId]
    exact h.offered r hr
  have hids : ((u.cancel d.store).subscriptions.map AgentSubscription.subscriptionId).Nodup := by
    rw [ids_cancel]
    exact h.ids
  refine ⟨fun _ _ => id, hids, h.kept (ids_cancel u d.store) fun r' hr' => ?_, hoffered, fun r' hr' => ?_,
    ⟨_, rfl, fun agentId hunbound => hfree agentId (unbound_mem_map.mp hunbound)⟩, settled_unbound u.agents h.settled⟩
  · obtain ⟨r, hr, hsame, -⟩ := mem_cancel hactive hr'
    exact ⟨r, hr, hsame⟩
  · intro agentId hinvolves hsevered
    rcases severed_append hsevered with hunbound | hsevered
    · have hfree := hfree agentId (unbound_mem_map.mp hunbound)
      rcases hinvolves with hsubscriber | hprovider
      · exact hfree.own r' hr' hsubscriber
      · obtain ⟨p, hp, hid, hpaid⟩ := hoffered r' hr'
        exact hfree.sold p hp (.inr (hpaid.trans hprovider)) r' hr' hid.symm
    · obtain ⟨r, hr, hsame, hcancelled | ⟨rfl, -⟩⟩ := mem_cancel hactive hr'
      · exact hcancelled
      · exact h.cut r' hr agentId hinvolves hsevered

/-! ### Steps -/

theorem Call.Held.turn (h : call.Held s log) (hturn : Turn s s' log log') : call.Held s' log' := by
  cases call with
  | unbind | detach | cancel => exact h
  | subscribe => exact hturn.products _ _ h
  | bill loaded seen =>
    obtain ⟨⟨r, hr, hsame⟩, since, before, rfl, hseen, hfree⟩ := h
    obtain ⟨r', hr', hsame'⟩ := hturn.kept r hr
    obtain ⟨events, rfl, -⟩ := hturn.log
    exact ⟨⟨r', hr', hsame.trans hsame'⟩, events ++ since, before, (List.append_assoc ..).symm, hseen, hfree⟩

theorem Inv.step (h : Inv d) (hturn : Turn d.store d'.store d.log d'.log)
    (hcalls : ∀ j call, d'.calls j = some call → d.calls j = some call ∨ call.Held d.store d.log) : Inv d' := by
  refine ⟨hturn.ids, hturn.offered, hturn.cut, hturn.settled, fun j call hcall => ?_⟩
  rcases hcalls j call hcall with hold | hnew
  · exact (h.held j call hold).turn hturn
  · exact hnew.turn hturn

theorem calls_goto (hheld : call.Held d.store d.log) : ∀ j c, (d.goto i call).calls j = some c →
    d.calls j = some c ∨ c.Held d.store d.log := by
  intro j c hc
  have hc : Function.update d.calls i (some call) j = some c := hc
  rcases eq_or_ne j i with rfl | hne
  · rw [Function.update_self] at hc
    cases hc
    exact .inr hheld
  · rw [Function.update_of_ne hne] at hc
    exact .inl hc

theorem calls_finish : ∀ j c, (d.finish i).calls j = some c → d.calls j = some c := by
  intro j c hc
  have hc : Function.update d.calls i none j = some c := hc
  rcases eq_or_ne j i with rfl | hne
  · rw [Function.update_self] at hc
    cases hc
  · rw [Function.update_of_ne hne] at hc
    exact hc

theorem Inv.turn_self (h : Inv d) : Turn d.store d.store d.log d.log := h.turn_quiet (fun _ _ => id) rfl

theorem held_proceed (hactive : ∀ loaded ∈ u.cancelled, loaded.status = .active) : ∀ j c, (d.proceed i u).calls j = some c →
    d.calls j = some c ∨ c.Held d.store d.log := by
  unfold Hub.proceed
  split
  · exact calls_goto hactive
  · exact calls_goto hactive

theorem store_proceed (d : Hub) (i : ℕ) (u : Detachment) : (d.proceed i u).store = d.store ∧ (d.proceed i u).log = d.log := by
  unfold Hub.proceed
  split <;> exact ⟨rfl, rfl⟩

theorem next_turn (h : Inv d) (hmeets : d.Careful (.next i)) (hcall : d.calls i = some call) :
    Inv (d.next i call) ∧ Turn d.store (d.next i call).store d.log (d.next i call).log := by
  have hmeets := hmeets call hcall
  cases call with
  | unbind u agentId rest =>
    have hactive : ∀ loaded ∈ u.cancelled, loaded.status = .active := h.held i _ hcall
    cases rest with
    | nil =>
      obtain ⟨hstore, hlog⟩ := store_proceed d i (u.check agentId d.store)
      have hturn : Turn d.store (d.next i (.unbind u agentId [])).store d.log (d.next i (.unbind u agentId [])).log := by
        show Turn d.store (d.proceed i (u.check agentId d.store)).store d.log (d.proceed i (u.check agentId d.store)).log
        rw [hstore, hlog]
        exact h.turn_self
      refine ⟨h.step hturn (held_proceed fun loaded hloaded => ?_), hturn⟩
      rcases List.mem_append.mp hloaded with hnew | hold
      · have hown := List.mem_filter.mp hnew
        exact (of_decide_eq_true hown.2).2
      · exact hactive loaded hold
    | cons check rest =>
      simp only [Hub.next]
      split
      · exact ⟨h.step h.turn_self (calls_goto hactive), h.turn_self⟩
      · exact ⟨h.step h.turn_self fun j c hc => .inl (calls_finish j c hc), h.turn_self⟩
  | detach u =>
    have hturn := turn_detach h hcall hmeets
    exact ⟨h.step hturn fun j c hc => .inl (calls_finish j c hc), hturn⟩
  | subscribe r product current now draw =>
    have hturn := turn_subscribe h hcall
    exact ⟨h.step hturn fun j c hc => .inl (calls_finish j c hc), hturn⟩
  | cancel loaded now =>
    have hturn := turn_cancel h i loaded now
    exact ⟨h.step hturn fun j c hc => .inl (calls_finish j c hc), hturn⟩
  | bill loaded seen now draw =>
    have hturn := turn_bill h hcall hmeets
    exact ⟨h.step hturn fun j c hc => .inl (calls_finish j c hc), hturn⟩

theorem Inv.begin (h : Inv d) (hheld : call.Held d.store d.log) (hbegin : d.begin i call = some d') :
    Inv d' ∧ Turn d.store d'.store d.log d'.log := by
  obtain ⟨-, hbegin⟩ := Option.ite_none_right_eq_some.mp hbegin
  cases hbegin
  exact ⟨h.step h.turn_self (calls_goto hheld), h.turn_self⟩

theorem Inv.write (h : Inv d) (hturn : Turn d.store s d.log d.log) :
    Inv { d with store := s } ∧ Turn d.store s d.log d.log :=
  ⟨h.step hturn fun _ _ hcall => .inl hcall, hturn⟩

theorem apply_products (op : Operation) (s : Store) (hop : (∃ form productId, op = .createProduct form productId) ∨
      ∃ productId ownerId ownerType, op = .archiveProduct productId ownerId ownerType) :
    (op.apply s).subscriptions = s.subscriptions ∧ ∀ p a, Offers s p a → Offers (op.apply s) p a := by
  rcases commit_cases op.call s with hsame | ⟨τ, hrun, hview, -⟩
  · rw [show op.apply s = s from hsame]
    exact ⟨rfl, fun _ _ => id⟩
  · rw [show op.apply s = τ.view from hview]
    rcases hop with ⟨form, productId, rfl⟩ | ⟨productId, ownerId, ownerType, rfl⟩
    · obtain ⟨product, hrun⟩ := exec_void_ok.mp hrun
      rw [createSubscriptionProduct_ok hrun]
      exact ⟨rfl, fun p a ⟨x, hx, hid⟩ => ⟨x, List.mem_append_left _ hx, hid⟩⟩
    · obtain ⟨product, hrun⟩ := exec_void_ok.mp hrun
      rcases archiveSubscriptionProduct_ok hrun with hsame | harchived
      · rw [hsame]
        exact ⟨rfl, fun _ _ => id⟩
      · rw [harchived]
        refine ⟨rfl, fun p a ⟨x, hx, hid⟩ => ⟨_, Table.mem_update.mpr ⟨x, hx, rfl⟩, ?_⟩⟩
        split <;> exact hid

theorem turn_changeRooms (h : Inv d) (rooms : List Room) (members : List RoomMember) :
    Turn d.store ((Operation.changeRooms rooms members).apply d.store) d.log d.log := by
  rcases commit_cases (Operation.changeRooms rooms members).call d.store with hsame | ⟨τ, hrun, hview, -⟩
  · rw [show (Operation.changeRooms rooms members).apply d.store = d.store from hsame]
    exact h.turn_self
  · rw [show (Operation.changeRooms rooms members).apply d.store = τ.view from hview]
    cases hrun
    refine h.turn [] (fun _ _ => id) ?_ (fun r' hr' => ?_) (fun _ => List.not_mem_nil) h.settled
    · simp [Store.changeRooms]
    · obtain ⟨r, hr, rfl⟩ := List.mem_map.mp hr'
      exact ⟨r, hr, ⟨rfl, rfl, rfl, rfl⟩, .inl rfl⟩

theorem held_bill (h : Inv d) (hfind : d.store.findSubscription subscriptionId = some loaded) (now : DateTime)
    (draw : BillingDraw) : (Call.bill loaded d.log.length now draw).Held d.store d.log := by
  have hloaded := List.mem_of_find?_eq_some hfind
  exact ⟨⟨loaded, hloaded, .refl loaded⟩, [], d.log, rfl, rfl, fun hopen agentId hinvolves hsevered =>
    hopen (h.cut loaded hloaded agentId hinvolves hsevered)⟩

theorem step_turn (h : Inv d) (hmeets : d.Careful a) (hstep : hub.step d a = some d') :
    Inv d' ∧ Turn d.store d'.store d.log d'.log := by
  cases a with
  | wallet op =>
    cases hstep
    exact h.write (h.turn_quiet (fun _ _ => id) rfl)
  | createProduct form productId =>
    cases hstep
    obtain ⟨hrows, hproducts⟩ := apply_products (.createProduct form productId) d.store (.inl ⟨form, productId, rfl⟩)
    exact h.write (h.turn_quiet hproducts hrows)
  | archiveProduct productId ownerId ownerType =>
    cases hstep
    obtain ⟨hrows, hproducts⟩ := apply_products (.archiveProduct productId ownerId ownerType) d.store
      (.inr ⟨productId, ownerId, ownerType, rfl⟩)
    exact h.write (h.turn_quiet hproducts hrows)
  | changeRooms rooms members =>
    cases hstep
    exact h.write (turn_changeRooms h rooms members)
  | bindAgent userId agentId openclawHostId =>
    have hsame : d'.store = d.store ∧ d'.log = d.log ∧ d'.calls = d.calls := by
      simp only [hub] at hstep
      split at hstep
      · obtain ⟨agents, -, rfl⟩ := Option.map_eq_some_iff.mp hstep
        exact ⟨rfl, rfl, rfl⟩
      · obtain ⟨-, hstep⟩ := Option.ite_none_right_eq_some.mp hstep
        cases hstep
        exact ⟨rfl, rfl, rfl⟩
    obtain ⟨hstore, hlog, hcalls⟩ := hsame
    have hturn : Turn d.store d'.store d.log d'.log := by
      rw [hstore, hlog]
      exact h.turn_self
    exact ⟨h.step hturn fun j c hc => .inl (hcalls ▸ hc), hturn⟩
  | unbindAgent i userId agentId now =>
    obtain ⟨-, hbegin⟩ := Option.ite_none_right_eq_some.mp hstep
    have hheld : (Call.unbind { now } agentId checks).Held d.store d.log := by
      intro loaded hloaded
      cases hloaded
    exact h.begin hheld hbegin
  | deleteOpenclawHost i userId hostId now =>
    obtain ⟨-, hstep⟩ := Option.ite_none_right_eq_some.mp hstep
    cases hstep
    obtain ⟨hstore, hlog⟩ := store_proceed d i { host := some hostId, now, rest := _ }
    refine ⟨h.step ?_ (held_proceed fun loaded hloaded => by cases hloaded), ?_⟩
    · rw [hstore, hlog]
      exact h.turn_self
    · rw [hstore, hlog]
      exact h.turn_self
  | createSubscription i r now draw =>
    simp only [hub] at hstep
    split at hstep
    · cases hstep
    · rename_i product hproduct
      obtain ⟨-, hbegin⟩ := Option.ite_none_right_eq_some.mp hstep
      have hheld : ∀ current, (Call.subscribe r product current now draw).Held d.store d.log := fun _ =>
        ⟨product, List.mem_of_find?_eq_some hproduct, rfl, rfl⟩
      exact h.begin (hheld _) hbegin
  | cancelSubscription i subscriptionId currentAgent now =>
    simp only [hub] at hstep
    split at hstep
    · cases hstep
    · rename_i loaded hfind
      obtain ⟨-, hbegin⟩ := Option.ite_none_right_eq_some.mp hstep
      have hheld : (Call.cancel loaded now).Held d.store d.log := trivial
      exact h.begin hheld hbegin
  | processDue i subscriptionId now draw =>
    simp only [hub] at hstep
    split at hstep
    · cases hstep
    · rename_i loaded hfind
      exact h.begin (held_bill h hfind now draw) hstep
  | next i =>
    obtain ⟨call, hcall, rfl⟩ := Option.map_eq_some_iff.mp hstep
    exact next_turn h hmeets hcall
  | crash i =>
    obtain ⟨call, -, rfl⟩ := Option.map_eq_some_iff.mp hstep
    exact ⟨h.step h.turn_self fun j c hc => .inl (calls_finish j c hc), h.turn_self⟩

/-- Wallets, products and agents there may be any, but no subscription was made yet. -/
def opened (s : Store) (agents : Keyed Agent.agentId) : Hub := { store := s, agents }

theorem inv_opened (h : Fresh s) (agents : Keyed Agent.agentId) : Inv (opened s agents) := by
  have hnone : ∀ r ∈ (opened s agents).store.subscriptions, False := by
    intro r hr
    rw [show (opened s agents).store.subscriptions = [] from h.subscriptions] at hr
    cases hr
  refine ⟨?_, fun r hr => (hnone r hr).elim, fun r hr => (hnone r hr).elim, trivial, fun _ _ hcall => by cases hcall⟩
  rw [show (opened s agents).store.subscriptions = [] from h.subscriptions]
  exact List.nodup_nil

/-- In a run whose steps all meet the condition, an agent is free directly after it was unbound, and no billing charges or credits it for a subscription of before. -/
theorem unbinding_settles {agents : Keyed Agent.agentId} {actions : List Action} (hfresh : Fresh s)
    (hmeets : hub.Meets Hub.Careful (opened s agents) (actions ++ [a])) (hrun : hub.run (opened s agents) actions = some d)
    (hstep : hub.step d a = some d') : (∀ agentId, d.Unbinds d' agentId → Free d'.store agentId) ∧ Settled d'.log := by
  obtain ⟨hfront, hlast⟩ := hub.meets_append.mp hmeets
  have hinv : Inv d := hub.run_invariant_of_meets (fun _ _ _ h hmeets hstep => (step_turn h hmeets hstep).1)
    (inv_opened hfresh agents) hfront hrun
  obtain ⟨hinv', hturn⟩ := step_turn hinv (hlast d hrun).1 hstep
  refine ⟨fun agentId hunbinds => ?_, hinv'.settled⟩
  obtain ⟨events, hlog, hmem⟩ := hunbinds
  obtain ⟨events', hlog', hfree⟩ := hturn.log
  obtain rfl : events = events' := List.append_cancel_right (hlog.symm.trans hlog')
  exact hfree agentId hmem

/-- A subscriber with five coins, and a product at five a month. -/
def stall : Store where
  wallet :=
    { agents := ["ag_a", "ag_b"], humans := []
      wallets := [{ ownerId := "ag_a", assetCode := "COIN", availableBalanceMinor := 5 }] }
  products :=
    [{ productId := "p", ownerId := "ag_b", ownerType := .agent, providerAgentId := "ag_b", name := "news"
       amountMinor := 5, billingInterval := .month }]

theorem fresh_stall : Fresh stall := ⟨by decide +kernel, rfl, rfl, rfl⟩

def day (month day : ℕ) : DateTime := { year := 2026, month, day }

/-- The subscriber spends its coins on the first month. -/
def subscribes : List Action :=
  [.bindAgent "u_1" "ag_a" none,
    .createSubscription 1 { productId := "p", subscriberAgentId := "ag_a" } (day 1 31) ⟨"sub_1", ⟨"tx_1", "", "e_1", "e_2"⟩⟩,
    .next 1]

/-- An unbinding up to its commit. -/
def unbinds (now : DateTime) : List Action :=
  [.unbindAgent 2 "u_1" "ag_a" now, .next 2, .next 2, .next 2, .next 2, .next 2, .next 2, .next 2]

/-- The agent is unbound while its subscription is active. -/
theorem unbound_settles : ∃ d d', hub.run (opened stall {}) (subscribes ++ unbinds (day 2 1)) = some d ∧
    hub.step d (.next 2) = some d' ∧ d.Unbinds d' "ag_a" ∧ Free d'.store "ag_a" ∧ Settled d'.log := by
  have hrun : (hub.run (opened stall {}) (subscribes ++ unbinds (day 2 1))).any (fun d =>
      (hub.step d (.next 2)).any fun d' => d'.log = [.unbound "ag_a"] ++ d.log) = true := by
    decide +kernel
  obtain ⟨d, hrun, hstep⟩ := (Option.any_eq_true _ _).mp hrun
  obtain ⟨d', hstep, hlog⟩ := (Option.any_eq_true _ _).mp hstep
  have hunbinds : d.Unbinds d' "ag_a" := ⟨_, of_decide_eq_true hlog, List.mem_singleton_self _⟩
  obtain ⟨hfree, hsettled⟩ := unbinding_settles fresh_stall (by decide +kernel) hrun hstep
  exact ⟨d, d', hrun, hstep, hunbinds, hfree "ag_a" hunbinds, hsettled⟩

/-- The second month cannot be paid, so that the subscription is past due when the agent is unbound; as soon as the agent has coins again, it pays. -/
theorem past_due_is_charged : ¬ ∀ (actions : List Action) (a : Action) (d d' : Hub),
    hub.run (opened stall {}) actions = some d → hub.step d a = some d' →
      (∀ agentId, d.Unbinds d' agentId → Free d'.store agentId) ∧ Settled d'.log := by
  intro hsettles
  have hrun : (hub.run (opened stall {}) (subscribes ++
      [.processDue 3 "sub_1" (day 3 1) ⟨"at_1", ⟨"tx_2", "", "e_3", "e_4"⟩⟩, .next 3] ++ unbinds (day 3 1) ++ [.next 2,
        .bindAgent "u_2" "ag_a" none,
        .wallet (.createTransfer { fromOwnerId := "ag_b", toOwnerId := "ag_a", amountMinor := 5 } ⟨"tx_3", "", "e_5", "e_6"⟩),
        .processDue 3 "sub_1" (day 3 2) ⟨"at_2", ⟨"tx_4", "", "e_7", "e_8"⟩⟩])).any (fun d =>
          (hub.step d (.next 3)).any fun d' => ¬ Settled d'.log) = true := by
    decide +kernel
  obtain ⟨d, hrun, hstep⟩ := (Option.any_eq_true _ _).mp hrun
  obtain ⟨d', hstep, hlog⟩ := (Option.any_eq_true _ _).mp hstep
  exact of_decide_eq_true hlog (hsettles _ _ d d' hrun hstep).2

end BotCord.Unbinding
