import BotCord.Policy.Resolver

/-!
# What a push promises

While a push stands its key holds it, unless a fetch that began before it settles after it. And what was pushed for an agent reaches a room only through the key of the agent, so it does not reach a room that has an entry of its own, fetched before the push, or a room whose policy is fetched whenever it is cold.
-/

namespace BotCord.Policy

/-- No fetch is written over a push that stands. A room without a push of its own, while one of its agent stands, has no entry that is still valid, and there is no fetcher for rooms. -/
def Orderly (options : Options) (r : PolicyResolver) : PolicyAction → Prop
  | .settle i => ∀ c ∈ r.calls i, c.fetched ≠ some .failed → ∀ p ∈ r.pushed c.key, p.expiresAt ≤ r.now
  | .resolve _ agentId roomId => r.standing agentId roomId = none → r.standing agentId none ≠ none →
      options.fetchEffective = false ∧ r.hit (cacheKey agentId roomId) = none
  | _ => True

instance (options : Options) (r : PolicyResolver) : DecidablePred (Orderly options r) := fun _ => by
  unfold Orderly
  split <;> infer_instance

/-- Every `resolve` that a push had promised something has returned it. -/
def Kept (r : PolicyResolver) : Prop :=
  (∀ i c, r.calls i = some c → c.promised = none) ∧ ∀ a ∈ r.resolved, ∀ p ∈ a.promised, a.policy = p

section Rooms

variable {agentId : AgentId} {roomId other : Option String} {policy : DaemonAttentionPolicy}

theorem maybeForceDirectConversation_congr (h : truthy roomId = truthy other) :
    maybeForceDirectConversation roomId policy = maybeForceDirectConversation other policy := by
  rw [maybeForceDirectConversation, maybeForceDirectConversation, h]

theorem maybeForceDirectConversation_of_none (h : truthy roomId = none) :
    maybeForceDirectConversation roomId policy = policy := by
  rw [maybeForceDirectConversation, h]
  rfl

theorem cacheKey_of_none (h : truthy roomId = none) : cacheKey agentId roomId = agentId := by
  rw [cacheKey, h]

end Rooms

namespace PolicyResolver

variable {options : Options} {r r' : PolicyResolver} {i : ℕ} {agentId : AgentId} {roomId : Option String} {key : String}
  {p : Push} {policy : DaemonAttentionPolicy} {c : Resolving}

/-- The key of a push that stands holds it, and a `resolve` that awaits a fetch was promised nothing. -/
structure Honest (r : PolicyResolver) : Prop where
  cached : ∀ key p, r.pushed key = some p → r.now < p.expiresAt →
    r.cache key = some ⟨maybeForceDirectConversation p.roomId p.policy, p.expiresAt⟩
  kept : Kept r

theorem standing_eq_some : r.standing agentId roomId = some p ↔
    r.pushed (cacheKey agentId roomId) = some p ∧ p.agentId = agentId ∧ truthy p.roomId = truthy roomId ∧
      r.now < p.expiresAt := by
  simp only [standing, Option.filter_eq_some_iff, decide_eq_true_eq]

theorem Honest.hit (h : r.Honest) (hpush : r.standing agentId roomId = some p) :
    r.hit (cacheKey agentId roomId) = some ⟨maybeForceDirectConversation roomId p.policy, p.expiresAt⟩ := by
  obtain ⟨hpushed, -, hroom, hnow⟩ := standing_eq_some.mp hpush
  rw [PolicyResolver.hit, h.cached _ p hpushed hnow, Option.filter_some, if_pos (decide_eq_true hnow),
    maybeForceDirectConversation_congr hroom]

theorem Honest.resolve_of_standing (h : r.Honest) (hpush : r.standing agentId roomId = some p) :
    r.resolve options i agentId roomId =
      r.answer agentId roomId (r.promised agentId roomId) (maybeForceDirectConversation roomId p.policy) := by
  have hhit := h.hit hpush
  unfold resolve
  cases hroom : truthy roomId with
  | some room => rw [Option.bind_some, hhit]
  | none =>
    rw [cacheKey_of_none hroom] at hhit
    rw [cacheKey_of_none (show truthy none = none from rfl), hhit]
    simp only [Option.bind_none, Option.isSome_none, Bool.false_and, Bool.false_eq_true, if_false]
    rw [maybeForceDirectConversation_of_none hroom, maybeForceDirectConversation_of_none hroom]

theorem Honest.resolve_of_inherited (h : r.Honest) (horderly : Orderly options r (.resolve i agentId roomId))
    (hnone : r.standing agentId roomId = none) (hpush : r.standing agentId none = some p) :
    r.resolve options i agentId roomId =
      r.answer agentId roomId (r.promised agentId roomId) (maybeForceDirectConversation roomId p.policy) := by
  obtain ⟨hwired, hcold⟩ := horderly hnone (by rw [hpush]; exact Option.some_ne_none p)
  have hbind : ((truthy roomId).bind fun _ => r.hit (cacheKey agentId roomId)) = none := by
    rw [hcold]
    exact Option.bind_fun_none ..
  unfold resolve
  rw [hbind, hwired, Bool.and_false, h.hit hpush, maybeForceDirectConversation_of_none (show truthy none = none from rfl)]
  rfl

theorem Honest.resolve_of_promised (h : r.Honest) (horderly : Orderly options r (.resolve i agentId roomId))
    (hpromised : r.promised agentId roomId = some policy) :
    r.resolve options i agentId roomId = r.answer agentId roomId (some policy) policy := by
  obtain ⟨p, hpush, rfl⟩ := Option.map_eq_some_iff.mp hpromised
  rw [← hpromised]
  cases hown : r.standing agentId roomId with
  | some own =>
    rw [hown, Option.some_or] at hpush
    cases hpush
    exact h.resolve_of_standing hown
  | none =>
    rw [hown, Option.none_or] at hpush
    exact h.resolve_of_inherited horderly hown hpush

theorem resolve_cases (options : Options) (r : PolicyResolver) (i : ℕ) (agentId : AgentId) (roomId : Option String) :
    (∃ policy, r.resolve options i agentId roomId = r.answer agentId roomId (r.promised agentId roomId) policy) ∨
      ∃ effective, r.resolve options i agentId roomId = r.fetch i agentId roomId effective := by
  unfold resolve
  split
  · exact .inl ⟨_, rfl⟩
  · split
    · exact .inr ⟨true, rfl⟩
    · split
      · exact .inl ⟨_, rfl⟩
      · exact .inr ⟨false, rfl⟩

theorem Honest.answer (h : r.Honest) {promised : Option DaemonAttentionPolicy} (hpolicy : ∀ p ∈ promised, policy = p) :
    (r.answer agentId roomId promised policy).Honest where
  cached := h.cached
  kept := by
    refine ⟨h.kept.1, fun a ha => ?_⟩
    obtain hold | hnew := List.mem_append.mp ha
    · exact h.kept.2 a hold
    · rw [List.mem_singleton.mp hnew]
      exact hpolicy

theorem Honest.withCall (h : r.Honest) {call : Option Resolving} (hcall : ∀ c ∈ call, c.promised = none) :
    Honest { r with calls := Function.update r.calls i call } where
  cached := h.cached
  kept := by
    refine ⟨fun j c hc => ?_, h.kept.2⟩
    dsimp only at hc
    rw [Function.update_apply] at hc
    split at hc
    · exact hcall c hc
    · exact h.kept.1 j c hc

theorem Honest.resolve (h : r.Honest) (horderly : Orderly options r (.resolve i agentId roomId)) :
    (r.resolve options i agentId roomId).Honest := by
  cases hpromised : r.promised agentId roomId with
  | some policy =>
    rw [h.resolve_of_promised horderly hpromised]
    exact h.answer fun p hp => Option.some.inj hp
  | none =>
    obtain ⟨policy, heq⟩ | ⟨effective, heq⟩ := resolve_cases options r i agentId roomId
    · rw [heq, hpromised]
      exact h.answer fun p hp => nomatch hp
    · rw [heq]
      refine h.withCall fun c hc => ?_
      cases hc
      exact hpromised

theorem Honest.store (h : r.Honest) {entry : Entry} (hfree : ∀ p ∈ r.pushed key, p.expiresAt ≤ r.now) :
    (r.store key entry).Honest where
  cached k p hp hnow := by
    have hne : k ≠ key := by
      rintro rfl
      exact absurd hnow (Nat.not_lt.mpr (hfree p hp))
    exact (Function.update_of_ne hne ..).trans (h.cached k p hp hnow)
  kept := h.kept

theorem Honest.settle (h : r.Honest) {fetched : Fetched} (hpromised : c.promised = none)
    (hfree : fetched ≠ .failed → ∀ p ∈ r.pushed c.key, p.expiresAt ≤ r.now) : (r.settle options c fetched).Honest := by
  cases fetched with
  | failed => exact h.answer (by simp [hpromised])
  | policy fetched => exact (h.store (hfree nofun)).answer (by simp [hpromised])

theorem Honest.put (h : r.Honest) : (r.put options agentId roomId policy).Honest where
  cached k p hp hnow := by
    by_cases hk : k = cacheKey agentId roomId
    · subst hk
      cases (Function.update_self ..).symm.trans hp
      exact Function.update_self ..
    · exact (Function.update_of_ne hk ..).trans (h.cached k p ((Function.update_of_ne hk ..).symm.trans hp) hnow)
  kept := h.kept

theorem Honest.invalidate (h : r.Honest) : (r.invalidate agentId roomId).Honest where
  cached k p hp hnow := by
    obtain ⟨hkeep, hp⟩ := Option.ite_none_left_eq_some.mp hp
    exact (if_neg hkeep).trans (h.cached k p hp hnow)
  kept := h.kept

theorem Honest.elapse (h : r.Honest) (ms : ℕ) : Honest { r with now := r.now + ms } where
  cached k p hp hnow := h.cached k p hp (Nat.lt_of_le_of_lt (Nat.le_add_right ..) hnow)
  kept := h.kept

theorem Honest.step (h : r.Honest) {action : PolicyAction} (horderly : Orderly options r action)
    (hstep : (policyResolver options).step r action = some r') : r'.Honest := by
  cases action with
  | resolve i agentId roomId =>
    obtain ⟨-, rfl⟩ := Option.ite_some_none_eq_some.mp hstep
    exact h.resolve horderly
  | serve i | fail i =>
    obtain ⟨c, hc, rfl⟩ := Option.map_eq_some_iff.mp hstep
    refine h.withCall fun c' hc' => ?_
    cases hc'
    exact h.kept.1 i c (Option.eq_some_of_filter_eq_some hc)
  | settle i =>
    obtain ⟨c, hc, hstep⟩ := Option.bind_eq_some_iff.mp hstep
    obtain ⟨fetched, hfetched, rfl⟩ := Option.map_eq_some_iff.mp hstep
    refine (h.withCall fun c hc => (Option.not_mem_none c hc).elim).settle (h.kept.1 i c hc) fun hfailed => ?_
    exact horderly c hc fun heq => hfailed (Option.some.inj (hfetched.symm.trans heq))
  | put agentId roomId policy => exact Option.some.inj hstep ▸ h.put
  | invalidate agentId roomId => exact Option.some.inj hstep ▸ h.invalidate
  | elapse ms => exact Option.some.inj hstep ▸ h.elapse ms
  | setGlobal agentId policy | setEffective agentId roomId policy =>
    cases hstep
    exact ⟨h.cached, h.kept⟩

end PolicyResolver

/-- In every run whose steps all meet the condition, every `resolve` that begins while a push promises it something returns just that, without waiting. -/
theorem pushes_stand {options : Options} {r : PolicyResolver} {actions : List PolicyAction}
    (hmeets : (policyResolver options).Meets (Orderly options) {} actions)
    (hrun : (policyResolver options).run {} actions = some r) : Kept r := by
  refine ((policyResolver options).run_invariant_of_meets (P := PolicyResolver.Honest) ?_ ?_ hmeets hrun).kept
  · exact fun _ _ _ h horderly hstep => h.step horderly hstep
  · exact ⟨fun _ _ hp => (nomatch hp), fun _ _ hc => (nomatch hc), fun _ ha => (nomatch ha)⟩

def mentionOnly : DaemonAttentionPolicy := { mode := .mentionOnly }

/-- The policy of an agent is fetched, and then pushed. -/
def fetchedThenPushed : List PolicyAction :=
  [.resolve 0 "ag_1" none, .serve 0, .settle 0, .put "ag_1" none mentionOnly, .resolve 1 "ag_1" (some "rm_1")]

theorem pushes_stand_after_fetch : ∃ r, (policyResolver {}).run {} fetchedThenPushed = some r ∧ Kept r ∧
    ⟨"ag_1", some "rm_1", some mentionOnly, mentionOnly⟩ ∈ r.resolved := by
  have hcomputed : ((policyResolver {}).run {} fetchedThenPushed).any (fun r =>
      ⟨"ag_1", some "rm_1", some mentionOnly, mentionOnly⟩ ∈ r.resolved) = true := by decide +kernel
  obtain ⟨r, hrun, hmem⟩ := Option.any_eq_true _ _ |>.mp hcomputed
  exact ⟨r, hrun, pushes_stand (by decide +kernel) hrun, of_decide_eq_true hmem⟩

/-- The fetch that began before the push settles after it: what was pushed is gone. -/
theorem push_undone : ¬ ∀ (options : Options) (r : PolicyResolver) (actions : List PolicyAction),
    (policyResolver options).run {} actions = some r → Kept r := by
  intro hclaim
  have hcomputed : ((policyResolver {}).run {} [.resolve 0 "ag_1" none, .serve 0, .put "ag_1" none mentionOnly, .settle 0,
      .resolve 1 "ag_1" (some "rm_1")]).any (fun r =>
        ⟨"ag_1", some "rm_1", some mentionOnly, defaultPolicy⟩ ∈ r.resolved) = true := by decide +kernel
  obtain ⟨r, hrun, hmem⟩ := Option.any_eq_true _ _ |>.mp hcomputed
  have hpolicy := (hclaim {} r _ hrun).2 _ (of_decide_eq_true hmem) mentionOnly rfl
  exact absurd hpolicy (by decide)

end BotCord.Policy
