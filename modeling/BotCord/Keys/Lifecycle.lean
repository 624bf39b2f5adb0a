import BotCord.Keys.Registry

/-!
# The life of a signing key

The nonces are unique in the table; a challenge is marked and a key counted in one statement and written in a later one, and `verify_agent` does not look at the state of the key that it makes active. Where a call still finds the challenge unused, the key not revoked and another key active, the keys live as they should.
-/

namespace BotCord.Keys

/-- From one state to a later one. -/
structure Store.Follows (s s' : Store) : Prop where
  revoked : ∀ k ∈ s.keys, k.state = .revoked → ∃ x ∈ s'.keys, x.keyId = k.keyId ∧ x.state = .revoked
  active : (∃ k ∈ s.keys, k.state = .active) → ∃ k ∈ s'.keys, k.state = .active

/-- What a call finds when it commits. -/
def Store.Settled (s : Store) : Call → Prop
  | .verified c k _ =>
    (∃ x ∈ s.challenges, x.challenge = c.challenge ∧ x.used = false) ∧
      (k.state = .active ∨ ∃ x ∈ s.keys, x.keyId = k.keyId ∧ x.state ≠ .revoked)
  | .revoking k =>
    (∃ x ∈ s.keys, x.keyId = k.keyId ∧ x.state = .active) → ∃ x ∈ s.keys, x.keyId ≠ k.keyId ∧ x.state = .active
  | _ => True

/-- The condition on a step. -/
def Hub.Orderly (d : Hub) : Action → Prop
  | .next i => ∀ call ∈ d.calls i, d.store.Settled call
  | _ => True

instance (s : Store) : DecidablePred s.Settled := fun _ => by
  unfold Store.Settled
  split <;> infer_instance

instance (d : Hub) : DecidablePred d.Orderly := fun _ => by
  unfold Hub.Orderly
  split <;> infer_instance

def Store.Spent (s : Store) : Proof → Prop
  | .challenge challenge => ∃ x ∈ s.challenges, x.challenge = challenge ∧ x.used = true
  | .nonce nonce => nonce ∈ s.nonces

structure Store.Once (s : Store) : Prop where
  distinct : s.proofs.Nodup
  spent : ∀ p ∈ s.proofs, s.Spent p

variable {s s' u : Store} {d d' : Hub} {a : Action} {i : ℕ}

namespace Store

theorem Follows.refl (s : Store) : s.Follows s := ⟨fun k hk hrevoked => ⟨k, hk, rfl, hrevoked⟩, id⟩

theorem Follows.trans (h : s.Follows s') (h' : s'.Follows u) : s.Follows u := by
  refine ⟨fun k hk hrevoked => ?_, fun hactive => h'.active (h.active hactive)⟩
  obtain ⟨x, hx, hid, hx'⟩ := h.revoked k hk hrevoked
  obtain ⟨y, hy, hyid, hy'⟩ := h'.revoked x hx hx'
  exact ⟨y, hy, hyid.trans hid, hy'⟩

theorem follows_of_subset (h : ∀ k ∈ s.keys, k ∈ s'.keys) : s.Follows s' := by
  refine ⟨fun k hk hrevoked => ⟨k, h k hk, rfl, hrevoked⟩, fun hactive => ?_⟩
  obtain ⟨k, hk, hactive⟩ := hactive
  exact ⟨k, h k hk, hactive⟩

theorem Once.cons {p : Proof} (h : s.Once) (hproofs : s'.proofs = p :: s.proofs) (hnew : p ∉ s.proofs)
    (hspent : s'.Spent p) (hmono : ∀ q, s.Spent q → s'.Spent q) : s'.Once := by
  refine ⟨hproofs ▸ List.nodup_cons.mpr ⟨hnew, h.distinct⟩, fun q hq => ?_⟩
  rw [hproofs] at hq
  rcases List.mem_cons.mp hq with rfl | hq
  · exact hspent
  · exact hmono q (h.spent q hq)

theorem Once.mono (h : s.Once) (hproofs : s'.proofs = s.proofs) (hmono : ∀ q, s.Spent q → s'.Spent q) : s'.Once :=
  ⟨hproofs ▸ h.distinct, fun q hq => hmono q (h.spent q (hproofs ▸ hq))⟩

end Store

section Writes

variable {c : Challenge} {k : SigningKey} {token : Token}

theorem once_addKey {party epoch : ℕ} (h : s.Once) (hadd : s.addKey party epoch = some s') : s'.Once := by
  obtain ⟨keys, -, hadd⟩ := Option.bind_eq_some_iff.mp hadd
  obtain ⟨challenges, hchallenges, rfl⟩ := Option.map_eq_some_iff.mp hadd
  refine h.mono rfl fun p hp => ?_
  cases p with
  | challenge challenge =>
    obtain ⟨x, hx, hspent⟩ := hp
    exact ⟨x, (Keyed.insert?_eq_some hchallenges).mem_iff.mpr (.inl hx), hspent⟩
  | nonce nonce => exact hp

theorem follows_addKey {party epoch : ℕ} (hadd : s.addKey party epoch = some s') : s.Follows s' := by
  obtain ⟨keys, hkeys, hadd⟩ := Option.bind_eq_some_iff.mp hadd
  obtain ⟨challenges, -, rfl⟩ := Option.map_eq_some_iff.mp hadd
  exact Store.follows_of_subset fun k hk => (Keyed.insert?_eq_some hkeys).mem_iff.mpr (.inl hk)

theorem follows_install (hinstall : s.install = some s') : s.Follows s' := by
  obtain ⟨keys, hkeys, rfl⟩ := Option.map_eq_some_iff.mp hinstall
  exact Store.follows_of_subset fun k hk => (Keyed.insert?_eq_some hkeys).mem_iff.mpr (.inl hk)

theorem once_verify (h : s.Once) (hmeets : s.Settled (.verified c k token)) : (s.verify c k token).Once := by
  obtain ⟨⟨x, hx, hkey, hunused⟩, -⟩ := hmeets
  refine h.cons (p := .challenge c.challenge) rfl (fun hmem => ?_) ?_ fun p hp => ?_
  · obtain ⟨y, hy, hykey, hused⟩ := h.spent _ hmem
    rw [Keyed.eq_of_key hy hx (hykey.trans hkey.symm), hunused] at hused
    cases hused
  · refine ⟨_, Keyed.mem_modify_of_mem Challenge.challenge_use hx, ?_⟩
    rw [if_pos hkey]
    exact ⟨hkey, rfl⟩
  · cases p with
    | challenge challenge =>
      obtain ⟨y, hy, hykey, hused⟩ := hp
      refine ⟨_, Keyed.mem_modify_of_mem Challenge.challenge_use hy, ?_⟩
      split
      · exact ⟨hykey, rfl⟩
      · exact ⟨hykey, hused⟩
    | nonce nonce => exact hp

theorem follows_verify (hmeets : s.Settled (.verified c k token)) : s.Follows (s.verify c k token) := by
  have hmem : ∀ y ∈ s.keys, (if y.keyId = k.keyId then y.activate k else y) ∈ (s.verify c k token).keys :=
    fun y hy => Keyed.mem_modify_of_mem (fun x => x.keyId_activate k) hy
  refine ⟨fun y hy hrevoked => ⟨_, hmem y hy, ?_⟩, fun hactive => ?_⟩
  · split
    · rename_i hid
      refine ⟨rfl, ?_⟩
      rcases hmeets.2 with hloaded | ⟨x, hx, hkey, hlive⟩
      · exact (if_pos hloaded).trans hrevoked
      · rw [Keyed.eq_of_key hx hy (hkey.trans hid.symm)] at hlive
        exact absurd hrevoked hlive
    · exact ⟨rfl, hrevoked⟩
  · obtain ⟨y, hy, hactive⟩ := hactive
    refine ⟨_, hmem y hy, ?_⟩
    split
    · show (if k.state = .active then y.state else .active) = .active
      split
      · exact hactive
      · rfl
    · exact hactive

theorem follows_revoke (hmeets : s.Settled (.revoking k)) : s.Follows (s.revoke k.keyId) := by
  have hmem : ∀ y ∈ s.keys, (if y.keyId = k.keyId then y.revoke else y) ∈ (s.revoke k.keyId).keys :=
    fun y hy => Keyed.mem_modify_of_mem SigningKey.keyId_revoke hy
  refine ⟨fun y hy hrevoked => ⟨_, hmem y hy, ?_⟩, fun hactive => ?_⟩
  · split
    · exact ⟨rfl, rfl⟩
    · exact ⟨rfl, hrevoked⟩
  · obtain ⟨y, hy, hactive⟩ := hactive
    by_cases hid : y.keyId = k.keyId
    · obtain ⟨x, hx, hne, hactive⟩ := hmeets ⟨y, hy, hid, hactive⟩
      have hx := hmem x hx
      rw [if_neg hne] at hx
      exact ⟨x, hx, hactive⟩
    · have hy := hmem y hy
      rw [if_neg hid] at hy
      exact ⟨y, hy, hactive⟩

theorem once_refresh {use : ProofUse} {agent : Agent} {nonce : Nonce} (h : s.Once) :
    (s.refresh use agent k nonce token).Once := by
  unfold Store.refresh
  split
  · exact h
  · rename_i hnew
    refine h.cons (p := .nonce nonce) rfl (fun hmem => hnew (h.spent _ hmem)) List.mem_cons_self fun p hp => ?_
    cases p with
    | challenge challenge => exact hp
    | nonce nonce => exact List.mem_cons_of_mem _ hp

theorem keys_refresh {use : ProofUse} {agent : Agent} {nonce : Nonce} :
    (s.refresh use agent k nonce token).keys = s.keys := by
  unfold Store.refresh
  split <;> rfl

theorem follows_reset {agent : Agent} {keyIds : List KeyId} (hreset : s.reset agent keyIds token = some s') :
    s.Follows s' := by
  obtain ⟨keys, hkeys, rfl⟩ := Option.map_eq_some_iff.mp hreset
  have hadds := Keyed.insert?_eq_some hkeys
  refine ⟨fun y hy hrevoked => ?_, fun _ => ⟨_, hadds.mem_iff.mpr (.inr rfl), rfl⟩⟩
  refine ⟨_, hadds.mem_iff.mpr (.inl (Keyed.mem_modify_of_mem SigningKey.keyId_revoke hy)), ?_⟩
  split
  · exact ⟨rfl, rfl⟩
  · exact ⟨rfl, hrevoked⟩

end Writes

theorem step_once (h : d.store.Once) (hmeets : d.Orderly a) (hstep : hub.step d a = some d') :
    d'.store.Once ∧ d.store.Follows d'.store := by
  have hwrites := step_writes hstep
  generalize d'.store = s' at hwrites ⊢
  cases hwrites with
  | reads => exact ⟨h, .refl _⟩
  | tick seconds => exact ⟨⟨h.distinct, h.spent⟩, Store.follows_of_subset fun _ hy => hy⟩
  | adds hholder hadd => exact ⟨once_addKey h hadd, follows_addKey hadd⟩
  | installs hempty hinstall =>
    refine ⟨?_, follows_install hinstall⟩
    obtain ⟨keys, -, heq⟩ := Option.map_eq_some_iff.mp hinstall
    rw [← heq]
    exact ⟨h.distinct, h.spent⟩
  | verifies hcall =>
    have hsettled := hmeets _ hcall
    exact ⟨once_verify h hsettled, follows_verify hsettled⟩
  | revokes hcall => exact ⟨⟨h.distinct, h.spent⟩, follows_revoke (hmeets _ hcall)⟩
  | refreshes hcall =>
    refine ⟨once_refresh h, Store.follows_of_subset fun y hy => ?_⟩
    rw [keys_refresh]
    exact hy
  | resets hcall hreset =>
    refine ⟨?_, follows_reset hreset⟩
    obtain ⟨keys, -, heq⟩ := Option.map_eq_some_iff.mp hreset
    rw [← heq]
    exact ⟨h.distinct, h.spent⟩

theorem once_opened (agent : Agent) : Store.Once { agent } := ⟨List.nodup_nil, fun _ h => absurd h List.not_mem_nil⟩

/-- In a run whose steps all meet the condition, from one state of the run to a later one a revoked key stays revoked and an active one remains, and no challenge and no nonce issues two tokens. -/
theorem keys_live {agent : Agent} {front back : List Action} {mid t : Hub}
    (hmeets : hub.Meets Hub.Orderly { store := { agent } } (front ++ back))
    (hmid : hub.run { store := { agent } } front = some mid) (hend : hub.run mid back = some t) :
    mid.store.Follows t.store ∧ t.store.proofs.Nodup := by
  obtain ⟨hfront, hback⟩ := hub.meets_append.mp hmeets
  have honce : mid.store.Once := hub.run_invariant_of_meets (P := fun d => d.store.Once)
    (fun _ _ _ h hmeets hstep => (step_once h hmeets hstep).1) (once_opened agent) hfront hmid
  have hlater : t.store.Once ∧ mid.store.Follows t.store := by
    refine hub.run_invariant_of_meets (P := fun d => d.store.Once ∧ mid.store.Follows d.store)
      (fun d a d' h hmeets hstep => ?_) ⟨honce, .refl _⟩ (hback mid hmid) hend
    obtain ⟨honce, hfollows⟩ := step_once h.1 hmeets hstep
    exact ⟨honce, h.2.trans hfollows⟩
  exact ⟨hlater.2, hlater.1.distinct⟩

/-- An agent is installed and brings in another key with its token. -/
def rotated : List Action := [.install, .addKey ⟨jwtExpireSeconds, 0, 0⟩]

/-- The other key is verified, the first is revoked, the other refreshes once. -/
theorem rotated_live : ∃ mid t, hub.run {} rotated = some mid ∧
    hub.run mid [.verifyAgent 1 2, .next 1, .next 1, .next 1, .revokeKey 2 ⟨jwtExpireSeconds, 0, 0⟩ 0, .next 2, .next 2,
      .refreshToken 3 .refresh 1 "n_1", .next 3, .next 3] = some t ∧
    t.store.proofs.length = 2 ∧ mid.store.Follows t.store ∧ t.store.proofs.Nodup := by
  have hrun : (hub.run {} rotated).any (fun mid => (hub.run mid
      [.verifyAgent 1 2, .next 1, .next 1, .next 1, .revokeKey 2 ⟨jwtExpireSeconds, 0, 0⟩ 0, .next 2, .next 2,
        .refreshToken 3 .refresh 1 "n_1", .next 3, .next 3]).any fun t => t.store.proofs.length = 2) = true := by
    decide +kernel
  obtain ⟨mid, hmid, hrest⟩ := (Option.any_eq_true _ _).mp hrun
  obtain ⟨t, hend, hlength⟩ := (Option.any_eq_true _ _).mp hrest
  have hmeets : hub.Meets Hub.Orderly { store := { agent := {} } } (rotated ++
      [.verifyAgent 1 2, .next 1, .next 1, .next 1, .revokeKey 2 ⟨jwtExpireSeconds, 0, 0⟩ 0, .next 2, .next 2,
        .refreshToken 3 .refresh 1 "n_1", .next 3, .next 3]) := by
    decide +kernel
  exact ⟨mid, t, hmid, hend, of_decide_eq_true hlength, keys_live hmeets hmid hend⟩

/-- The other key is revoked before it is verified, and its challenge makes it active after all. -/
theorem revoked_becomes_active : ¬ ∀ (agent : Agent) (front back : List Action) (mid t : Hub),
    hub.run { store := { agent } } front = some mid → hub.run mid back = some t → mid.store.Follows t.store := by
  intro hfollows
  have hrun : (hub.run {} (rotated ++ [.revokeKey 2 ⟨jwtExpireSeconds, 0, 0⟩ 1, .next 2, .next 2])).any (fun mid =>
      (∃ k ∈ mid.store.keys, k.keyId = 1 ∧ k.state = .revoked) ∧
        (hub.run mid [.verifyAgent 3 2, .next 3, .next 3, .next 3]).any fun t =>
          ∀ k ∈ t.store.keys, k.keyId = 1 → k.state = .active) = true := by
    decide +kernel
  obtain ⟨mid, hmid, hrest⟩ := (Option.any_eq_true _ _).mp hrun
  obtain ⟨⟨k, hk, hid, hrevoked⟩, hend⟩ := of_decide_eq_true hrest
  obtain ⟨t, hend, hactive⟩ := (Option.any_eq_true _ _).mp hend
  obtain ⟨x, hx, hxid, hx'⟩ := (hfollows {} _ _ mid t hmid hend).revoked k hk hrevoked
  have := of_decide_eq_true hactive x hx (hxid.trans hid)
  rw [hx'] at this
  cases this

end BotCord.Keys
