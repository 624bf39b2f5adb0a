import BotCord.Keys.Registry

/-!
# Who is locked out

A token of before the reset still adds a key, a challenge of before it still makes its key active, and a call that has read before a reset writes after it; and as a token says no more than the second in which it expires, two tokens of one second are one. Where only keys of after the last reset are verified and refreshed, a reset revokes every key that is active and no two tokens meet in one second, the holders of before have nothing.
-/

namespace BotCord.Keys

/-- What whoever held the agent before a reset has of it. -/
structure Store.LockedOut (s : Store) : Prop where
  tokens : ∀ t ∈ s.issued, t.party < s.epoch → ¬ s.Accepts t.token
  keys : ∀ k ∈ s.keys, k.party < s.epoch → k.state ≠ .active

namespace Store

variable (s : Store)

def Recent (k : SigningKey) : Prop := ∀ x ∈ s.keys, x.keyId = k.keyId → x.epoch = s.epoch
deriving Decidable

def Guarded : Call → Prop
  | .verified _ k _ => s.Recent k
  | .refreshed use _ k nonce token =>
    nonce ∉ s.nonces →
      s.Recent k ∧ (use = .refresh → ∀ t ∈ s.issued, t.epoch < s.epoch → t.token ≠ token)
  | .resetting _ keyIds token =>
    (∀ k ∈ s.keys, k.state = .active → k.keyId ∈ keyIds) ∧ ∀ t ∈ s.issued, t.token ≠ token
  | _ => True

instance : DecidablePred s.Guarded
  | .verified _ k _ => inferInstanceAs (Decidable (s.Recent k))
  | .refreshed .. => inferInstanceAs (Decidable (_ → s.Recent _ ∧ (_ → ∀ t ∈ s.issued, _)))
  | .resetting .. => inferInstanceAs (Decidable ((∀ k ∈ s.keys, _) ∧ ∀ t ∈ s.issued, _))
  | .challenge _ | .verify .. | .revoke _ | .revoking _ | .refresh .. | .reset _ => isTrue trivial

end Store

/-- The condition on a step. -/
def Hub.Careful (d : Hub) : Action → Prop
  | .next i => ∀ call ∈ d.calls i, d.store.Guarded call
  | _ => True

instance : ∀ (d : Hub) a, Decidable (d.Careful a)
  | d, .next i => inferInstanceAs (Decidable (∀ call ∈ d.calls i, d.store.Guarded call))
  | _, .tick _ | _, .register | _, .install | _, .addKey _ | _, .verifyAgent .. | _, .revokeKey .. | _, .refreshToken ..
  | _, .resetAgentCredential _ | _, .crash _ => isTrue trivial

def Held (epoch party now : ℕ) : Prop := epoch ≤ now ∧ (epoch = now → party = now)

structure Store.Sound (s : Store) : Prop where
  keys : ∀ k ∈ s.keys, Held k.epoch k.party s.epoch
  active : ∀ k ∈ s.keys, k.state = .active → k.epoch = s.epoch
  issued : ∀ t ∈ s.issued, Held t.epoch t.party s.epoch
  current : 0 < s.epoch → ∃ token, s.agent.agentToken = some token ∧ ∀ t ∈ s.issued, t.token = token → t.epoch = s.epoch
  known : ∀ token ∈ s.agent.agentToken, ∃ t ∈ s.issued, t.token = token
  opened : s.keys.rows = [] → s.epoch = 0

def Call.Read (s : Store) : Call → Prop
  | .verify _ k | .verified _ k _ | .refresh _ _ k _ | .refreshed _ _ k _ _ =>
    ∃ x ∈ s.keys, x.keyId = k.keyId ∧ x.party = k.party
  | .reset agent | .resetting agent _ _ => ∀ token ∈ agent.agentToken, ∃ t ∈ s.issued, t.token = token
  | .challenge _ | .revoke _ | .revoking _ => True

structure Inv (d : Hub) : Prop where
  sound : d.store.Sound
  calls : ∀ i, ∀ call ∈ d.calls i, call.Read d.store

structure Store.Keeps (s s' : Store) : Prop where
  keys : ∀ x ∈ s.keys, ∃ y ∈ s'.keys, y.keyId = x.keyId ∧ y.party = x.party
  issued : s.issued ⊆ s'.issued

variable {s s' : Store} {d d' : Hub} {a : Action} {i : ℕ} {call : Call} {k : SigningKey} {token : Token}

theorem Held.later {epoch party now : ℕ} (h : Held epoch party now) : Held epoch party (now + 1) :=
  ⟨h.1.trans (Nat.le_succ _), fun heq => absurd h.1 (by omega)⟩

namespace Store

theorem Sound.party (h : s.Sound) (hread : ∃ x ∈ s.keys, x.keyId = k.keyId ∧ x.party = k.party) (hrecent : s.Recent k) :
    k.party = s.epoch := by
  obtain ⟨x, hx, hid, hparty⟩ := hread
  rw [← hparty]
  exact (h.keys x hx).2 (hrecent x hx hid)

theorem Sound.lockedOut (h : s.Sound) : s.LockedOut := by
  refine ⟨fun t ht hparty haccepts => ?_, fun k hk hparty hactive => ?_⟩
  · obtain ⟨token, htoken, hrecent⟩ := h.current (by omega)
    have hepoch := hrecent t ht (haccepts.2.2.1 token htoken).symm
    have := (h.issued t ht).2 hepoch
    omega
  · have := (h.keys k hk).2 (h.active k hk hactive)
    omega

theorem Keeps.refl (s : Store) : s.Keeps s := ⟨fun x hx => ⟨x, hx, rfl, rfl⟩, List.Subset.refl _⟩

end Store

theorem Call.Read.mono (h : call.Read s) (hkeeps : s.Keeps s') : call.Read s' := by
  cases call with
  | challenge | revoke | revoking => trivial
  | verify | verified | refresh | refreshed =>
    obtain ⟨x, hx, hid, hparty⟩ := h
    obtain ⟨y, hy, hyid, hyparty⟩ := hkeeps.keys x hx
    exact ⟨y, hy, hyid.trans hid, hyparty.trans hparty⟩
  | reset | resetting =>
    intro token htoken
    obtain ⟨t, ht, heq⟩ := h token htoken
    exact ⟨t, hkeeps.issued ht, heq⟩

theorem sound_addKey {party epoch : ℕ} (h : s.Sound) (hheld : Held epoch party s.epoch)
    (hadd : s.addKey party epoch = some s') : s'.Sound ∧ s.Keeps s' := by
  obtain ⟨keys, hkeys, hadd⟩ := Option.bind_eq_some_iff.mp hadd
  obtain ⟨challenges, -, rfl⟩ := Option.map_eq_some_iff.mp hadd
  have hadds := Keyed.insert?_eq_some hkeys
  refine ⟨⟨fun k hk => ?_, fun k hk hactive => ?_, h.issued, h.current, h.known, fun hempty => ?_⟩,
    fun x hx => ⟨x, hadds.mem_iff.mpr (.inl hx), rfl, rfl⟩, List.Subset.refl _⟩
  · rcases hadds.mem_iff.mp hk with hk | rfl
    · exact h.keys k hk
    · exact hheld
  · rcases hadds.mem_iff.mp hk with hk | rfl
    · exact h.active k hk hactive
    · cases hactive
  · have hempty : keys.rows = [] := hempty
    rw [hadds.rows] at hempty
    exact absurd hempty (List.append_ne_nil_of_right_ne_nil _ (List.cons_ne_nil _ _))

theorem sound_install (h : s.Sound) (hempty : s.keys.rows = []) (hinstall : s.install = some s') :
    s'.Sound ∧ s.Keeps s' := by
  obtain ⟨keys, hkeys, rfl⟩ := Option.map_eq_some_iff.mp hinstall
  have hadds := Keyed.insert?_eq_some hkeys
  have hepoch := h.opened hempty
  refine ⟨⟨fun k hk => ?_, fun k hk hactive => ?_, fun t ht => ?_, fun hpos => ?_, fun token htoken => ?_, fun _ => hepoch⟩,
    fun x hx => ⟨x, hadds.mem_iff.mpr (.inl hx), rfl, rfl⟩, List.subset_cons_self _ _⟩
  · rcases hadds.mem_iff.mp hk with hk | rfl
    · exact h.keys k hk
    · exact ⟨le_rfl, fun _ => rfl⟩
  · rcases hadds.mem_iff.mp hk with hk | rfl
    · exact h.active k hk hactive
    · rfl
  · rcases List.mem_cons.mp ht with rfl | ht
    · exact ⟨le_rfl, fun _ => rfl⟩
    · exact h.issued t ht
  · exact absurd hepoch hpos.ne'
  · cases htoken
    exact ⟨_, List.mem_cons_self, rfl⟩

theorem current_cons {agentToken : Option Token} {issued : List Issued} {epoch : ℕ}
    (h : 0 < epoch → ∃ token, agentToken = some token ∧ ∀ t ∈ issued, t.token = token → t.epoch = epoch)
    (token : Token) (party : ℕ) : 0 < epoch → ∃ token', agentToken = some token' ∧
      ∀ t ∈ (⟨token, party, epoch⟩ : Issued) :: issued, t.token = token' → t.epoch = epoch := by
  intro hpos
  obtain ⟨token', htoken, hrecent⟩ := h hpos
  refine ⟨token', htoken, fun t ht heq => ?_⟩
  rcases List.mem_cons.mp ht with rfl | ht
  · rfl
  · exact hrecent t ht heq

theorem sound_verify {c : Challenge} (h : s.Sound) (hread : Call.Read s (.verified c k token)) (hrecent : s.Recent k) :
    (s.verify c k token).Sound ∧ s.Keeps (s.verify c k token) := by
  have hmem : ∀ {y}, y ∈ (s.verify c k token).keys ↔ ∃ x ∈ s.keys, (if x.keyId = k.keyId then x.activate k else x) = y :=
    Keyed.mem_modify fun x => x.keyId_activate k
  refine ⟨⟨fun y hy => ?_, fun y hy hactive => ?_, fun t ht => ?_, current_cons h.current _ _, fun token' htoken => ?_,
    fun hempty => h.opened (List.map_eq_nil_iff.mp hempty)⟩, fun x hx => ⟨_, hmem.mpr ⟨x, hx, rfl⟩, ?_⟩,
    List.subset_cons_self _ _⟩
  · obtain ⟨x, hx, rfl⟩ := hmem.mp hy
    split
    · exact h.keys x hx
    · exact h.keys x hx
  · obtain ⟨x, hx, rfl⟩ := hmem.mp hy
    split at hactive
    · rename_i hid
      rw [if_pos hid]
      exact hrecent x hx hid
    · rename_i hid
      rw [if_neg hid]
      exact h.active x hx hactive
  · rcases List.mem_cons.mp ht with rfl | ht
    · exact ⟨le_rfl, fun _ => h.party hread hrecent⟩
    · exact h.issued t ht
  · obtain ⟨t, ht, heq⟩ := h.known token' htoken
    exact ⟨t, List.mem_cons_of_mem _ ht, heq⟩
  · split <;> exact ⟨rfl, rfl⟩

theorem sound_revoke (h : s.Sound) (keyId : KeyId) : (s.revoke keyId).Sound ∧ s.Keeps (s.revoke keyId) := by
  have hmem : ∀ {y}, y ∈ (s.revoke keyId).keys ↔ ∃ x ∈ s.keys, (if x.keyId = keyId then x.revoke else x) = y :=
    Keyed.mem_modify SigningKey.keyId_revoke
  refine ⟨⟨fun y hy => ?_, fun y hy hactive => ?_, h.issued, h.current, h.known,
    fun hempty => h.opened (List.map_eq_nil_iff.mp hempty)⟩, fun x hx => ⟨_, hmem.mpr ⟨x, hx, rfl⟩, ?_⟩,
    List.Subset.refl _⟩
  · obtain ⟨x, hx, rfl⟩ := hmem.mp hy
    split
    · exact h.keys x hx
    · exact h.keys x hx
  · obtain ⟨x, hx, rfl⟩ := hmem.mp hy
    split at hactive
    · cases hactive
    · rename_i hid
      rw [if_neg hid]
      exact h.active x hx hactive
  · split <;> exact ⟨rfl, rfl⟩

theorem agentToken_store (a loaded : Agent) (token : Token) :
    (a.store loaded token).agentToken = if loaded.agentToken = some token then a.agentToken else some token := rfl

theorem sound_refresh {use : ProofUse} {agent : Agent} {nonce : Nonce} (h : s.Sound)
    (hread : Call.Read s (.refreshed use agent k nonce token)) (hmeets : s.Guarded (.refreshed use agent k nonce token)) :
    (s.refresh use agent k nonce token).Sound ∧ s.Keeps (s.refresh use agent k nonce token) := by
  unfold Store.refresh
  split
  · exact ⟨h, .refl s⟩
  · rename_i hnew
    obtain ⟨hrecent, hsecond⟩ := hmeets hnew
    have hcurrent := current_cons h.current token k.party
    refine ⟨⟨h.keys, h.active, fun t ht => ?_, fun hpos => ?_, fun token' htoken => ?_, h.opened⟩, (Store.Keeps.refl s).keys,
      List.subset_cons_self _ _⟩
    · rcases List.mem_cons.mp ht with rfl | ht
      · exact ⟨le_rfl, fun _ => h.party hread hrecent⟩
      · exact h.issued t ht
    · cases use with
      | bind => exact hcurrent hpos
      | refresh =>
        show ∃ token', (s.agent.store agent token).agentToken = some token' ∧ _
        rw [agentToken_store]
        split
        · exact hcurrent hpos
        · refine ⟨token, rfl, fun t ht heq => ?_⟩
          rcases List.mem_cons.mp ht with rfl | ht
          · rfl
          · by_contra hne
            exact hsecond rfl t ht (lt_of_le_of_ne (h.issued t ht).1 hne) heq
    · have hcases : s.agent.agentToken = some token' ∨ token' = token := by
        cases use with
        | bind => exact .inl htoken
        | refresh =>
          have htoken : (s.agent.store agent token).agentToken = some token' := htoken
          rw [agentToken_store] at htoken
          split at htoken
          · exact .inl htoken
          · exact .inr (Option.some.inj htoken).symm
      rcases hcases with hold | rfl
      · obtain ⟨t, ht, heq⟩ := h.known token' hold
        exact ⟨t, List.mem_cons_of_mem _ ht, heq⟩
      · exact ⟨_, List.mem_cons_self, rfl⟩

/-- A reset that revokes every active key, and whose token nobody has, leaves the others nothing. -/
theorem sound_reset {agent : Agent} {keyIds : List KeyId} (h : s.Sound)
    (hread : Call.Read s (.resetting agent keyIds token)) (hmeets : s.Guarded (.resetting agent keyIds token))
    (hreset : s.reset agent keyIds token = some s') : s'.Sound ∧ s.Keeps s' := by
  obtain ⟨keys, hkeys, rfl⟩ := Option.map_eq_some_iff.mp hreset
  obtain ⟨hall, hunissued⟩ := hmeets
  have hadds := Keyed.insert?_eq_some hkeys
  have hmem : ∀ {y}, y ∈ keys ↔ (∃ x ∈ s.keys, (if x.keyId ∈ keyIds then x.revoke else x) = y) ∨
      y = { keyId := s.drawn, state := .active, party := s.epoch + 1, epoch := s.epoch + 1 } := by
    intro y
    rw [hadds.mem_iff, Keyed.mem_modify SigningKey.keyId_revoke]
  have htoken : (s.agent.store agent token).agentToken = some token := by
    rw [agentToken_store, if_neg fun heq => ?_]
    obtain ⟨t, ht, hsame⟩ := hread token heq
    exact hunissued t ht hsame
  refine ⟨⟨fun y hy => ?_, fun y hy hactive => ?_, fun t ht => ?_, fun _ => ⟨token, htoken, fun t ht heq => ?_⟩,
    fun token' heq => ?_, fun hempty => ?_⟩, fun x hx => ⟨_, hmem.mpr (.inl ⟨x, hx, rfl⟩), ?_⟩, List.subset_cons_self _ _⟩
  · rcases hmem.mp hy with ⟨x, hx, rfl⟩ | rfl
    · split
      · exact (h.keys x hx).later
      · exact (h.keys x hx).later
    · exact ⟨le_rfl, fun _ => rfl⟩
  · rcases hmem.mp hy with ⟨x, hx, rfl⟩ | rfl
    · split at hactive
      · cases hactive
      · rename_i hid
        exact absurd (hall x hx hactive) hid
    · rfl
  · rcases List.mem_cons.mp ht with rfl | ht
    · exact ⟨le_rfl, fun _ => rfl⟩
    · exact (h.issued t ht).later
  · rcases List.mem_cons.mp ht with rfl | ht
    · rfl
    · exact absurd heq (hunissued t ht)
  · exact ⟨_, List.mem_cons_self, Option.some.inj (htoken.symm.trans heq)⟩
  · have hempty : keys.rows = [] := hempty
    rw [hadds.rows] at hempty
    exact absurd hempty (List.append_ne_nil_of_right_ne_nil _ (List.cons_ne_nil _ _))
  · split <;> exact ⟨rfl, rfl⟩

theorem writes_sound (h : Inv d) (hmeets : d.Careful a) (hwrites : d.Writes a s) : s.Sound ∧ d.store.Keeps s := by
  have hsound := h.sound
  cases hwrites with
  | reads => exact ⟨hsound, .refl _⟩
  | tick seconds =>
    exact ⟨⟨hsound.keys, hsound.active, hsound.issued, hsound.current, hsound.known, hsound.opened⟩,
      (Store.Keeps.refl d.store).keys, List.Subset.refl _⟩
  | adds hholder hadd =>
    refine sound_addKey hsound ?_ hadd
    rcases hholder with ⟨rfl, rfl⟩ | ⟨t, ht, rfl, rfl⟩
    · exact ⟨le_rfl, fun _ => rfl⟩
    · exact hsound.issued t ht
  | installs hempty hinstall => exact sound_install hsound hempty hinstall
  | verifies hcall => exact sound_verify hsound (h.calls _ _ hcall) (hmeets _ hcall)
  | revokes hcall => exact sound_revoke hsound _
  | refreshes hcall => exact sound_refresh hsound (h.calls _ _ hcall) (hmeets _ hcall)
  | resets hcall hreset => exact sound_reset hsound (h.calls _ _ hcall) (hmeets _ hcall) hreset

theorem Inv.goto (h : Inv d) (hsound : s.Sound) (hkeeps : d.store.Keeps s) {next : Option Call}
    (hread : ∀ call ∈ next, call.Read s) : Inv { store := s, calls := Function.update d.calls i next } := by
  refine ⟨hsound, fun j call hcall => ?_⟩
  have hcall : Function.update d.calls i next j = some call := hcall
  rcases eq_or_ne j i with rfl | hne
  · rw [Function.update_self] at hcall
    exact hread call hcall
  · rw [Function.update_of_ne hne] at hcall
    exact (h.calls j call hcall).mono hkeeps

theorem Inv.begin (h : Inv d) (hread : call.Read d.store) (hbegin : d.begin i call = some d') : Inv d' := by
  obtain ⟨-, hbegin⟩ := Option.ite_none_right_eq_some.mp hbegin
  cases hbegin
  refine h.goto h.sound (.refl _) fun call hcall => ?_
  cases hcall
  exact hread

theorem read_of_get? {keyId : KeyId} (h : s.keys.get? keyId = some k) :
    ∃ x ∈ s.keys, x.keyId = k.keyId ∧ x.party = k.party :=
  ⟨k, (Keyed.get?_eq_some_iff.mp h).1, rfl, rfl⟩

theorem next_inv (h : Inv d) (hmeets : d.Careful (.next i)) (hcall : d.calls i = some call)
    (hnext : d.next i call = some d') : Inv d' := by
  obtain ⟨hsound, hkeeps⟩ := writes_sound h hmeets (next_writes hcall hnext)
  have hread := h.calls i call hcall
  have hgone : ∀ call ∈ (none : Option Call), call.Read d'.store := fun _ h => (by cases h)
  have hnow : ∀ {next : Call}, next.Read d.store → ∀ call ∈ some next, call.Read d.store := by
    intro next hnext call hcall
    cases hcall
    exact hnext
  cases call with
  | challenge c =>
    simp only [Hub.next] at hnext
    split at hnext
    · rename_i k hk
      cases hnext
      exact h.goto hsound hkeeps (hnow (read_of_get? hk))
    · cases hnext
      exact h.goto hsound hkeeps hgone
  | verify c k =>
    cases hnext
    exact h.goto hsound hkeeps (hnow hread)
  | revoke k =>
    simp only [Hub.next] at hnext
    split at hnext
    · cases hnext
      exact h.goto hsound hkeeps hgone
    · cases hnext
      exact h.goto hsound hkeeps (hnow trivial)
  | refresh use agent k nonce =>
    simp only [Hub.next] at hnext
    split at hnext
    · cases hnext
      exact h.goto hsound hkeeps hgone
    · cases hnext
      exact h.goto hsound hkeeps (hnow hread)
  | reset agent =>
    cases hnext
    exact h.goto hsound hkeeps (hnow hread)
  | verified | revoking | refreshed =>
    cases hnext
    exact h.goto hsound hkeeps hgone
  | resetting agent keyIds token =>
    obtain ⟨s', -, rfl⟩ := Option.map_eq_some_iff.mp hnext
    exact h.goto hsound hkeeps hgone

theorem Inv.write (h : Inv d) (hmeets : d.Careful a) (hwrites : d.Writes a s) : Inv { d with store := s } := by
  obtain ⟨hsound, hkeeps⟩ := writes_sound h hmeets hwrites
  exact ⟨hsound, fun i call hcall => (h.calls i call hcall).mono hkeeps⟩

theorem step_inv (h : Inv d) (hmeets : d.Careful a) (hstep : hub.step d a = some d') : Inv d' := by
  have hwrites := step_writes hstep
  cases a with
  | tick seconds =>
    cases hstep
    exact h.write hmeets hwrites
  | register =>
    obtain ⟨-, hstep⟩ := Option.ite_none_right_eq_some.mp hstep
    obtain ⟨s, -, rfl⟩ := Option.map_eq_some_iff.mp hstep
    exact h.write hmeets hwrites
  | install =>
    obtain ⟨-, hstep⟩ := Option.ite_none_right_eq_some.mp hstep
    obtain ⟨s, -, rfl⟩ := Option.map_eq_some_iff.mp hstep
    exact h.write hmeets hwrites
  | addKey token =>
    obtain ⟨-, hstep⟩ := Option.ite_none_right_eq_some.mp hstep
    obtain ⟨s, -, rfl⟩ := Option.map_eq_some_iff.mp hstep
    exact h.write hmeets hwrites
  | verifyAgent i challenge =>
    simp only [hub] at hstep
    split at hstep
    · cases hstep
    · obtain ⟨-, hbegin⟩ := Option.ite_none_right_eq_some.mp hstep
      exact h.begin (by trivial) hbegin
  | revokeKey i token keyId =>
    obtain ⟨-, hstep⟩ := Option.ite_none_right_eq_some.mp hstep
    split at hstep
    · cases hstep
    · obtain ⟨-, hbegin⟩ := Option.ite_none_left_eq_some.mp hstep
      exact h.begin (by trivial) hbegin
  | refreshToken i use keyId nonce =>
    simp only [hub] at hstep
    split at hstep
    · cases hstep
    · rename_i k hk
      obtain ⟨-, hbegin⟩ := Option.ite_none_right_eq_some.mp hstep
      have hread : Call.Read d.store (.refresh use d.store.agent k nonce) := read_of_get? hk
      exact h.begin hread hbegin
  | resetAgentCredential i =>
    obtain ⟨-, hbegin⟩ := Option.ite_none_right_eq_some.mp hstep
    have hread : Call.Read d.store (.reset d.store.agent) := h.sound.known
    exact h.begin hread hbegin
  | next i =>
    obtain ⟨call, hcall, hnext⟩ := Option.bind_eq_some_iff.mp hstep
    exact next_inv h hmeets hcall hnext
  | crash i =>
    obtain ⟨call, -, rfl⟩ := Option.map_eq_some_iff.mp hstep
    exact h.goto h.sound (.refl _) fun _ h => (by cases h)

/-- An agent that has no token yet. -/
def unissued (status : AgentStatus) (claimedAt : Option Instant) : Hub := { store := { agent := { status, claimedAt } } }

theorem inv_unissued (status : AgentStatus) (claimedAt : Option Instant) : Inv (unissued status claimedAt) := by
  refine ⟨⟨?_, ?_, ?_, fun h => absurd h (lt_irrefl 0), fun _ h => (by cases h), fun _ => rfl⟩, fun _ _ h => (by cases h)⟩
  all_goals
    intro x hx
    cases hx

/-- In a run whose steps all meet the condition, whoever held the agent before a reset is locked out in every state reached. -/
theorem resets_lock_out {status : AgentStatus} {claimedAt : Option Instant} {actions : List Action}
    (hmeets : hub.Meets Hub.Careful (unissued status claimedAt) actions)
    (hrun : hub.run (unissued status claimedAt) actions = some d) : d.store.LockedOut :=
  (hub.run_invariant_of_meets (fun _ _ _ h hmeets hstep => step_inv h hmeets hstep) (inv_unissued status claimedAt) hmeets
    hrun).sound.lockedOut

/-- An agent is installed, and its credential is reset a second later. -/
def replaced : List Action := [.install, .tick 1, .resetAgentCredential 1, .next 1, .next 1]

/-- The new holder brings in a second key, verifies it and refreshes with it. -/
theorem replaced_locks_out : ∃ d, hub.run (unissued .active (some 0)) (replaced ++ [.tick 1,
      .addKey ⟨jwtExpireSeconds + 1, 1, 1⟩, .verifyAgent 2 3, .next 2, .next 2, .next 2, .refreshToken 3 .refresh 2 "n_1",
      .next 3, .next 3]) = some d ∧ d.store.issued.length = 4 ∧ d.store.LockedOut := by
  have hrun : (hub.run (unissued .active (some 0)) (replaced ++ [.tick 1,
      .addKey ⟨jwtExpireSeconds + 1, 1, 1⟩, .verifyAgent 2 3, .next 2, .next 2, .next 2, .refreshToken 3 .refresh 2 "n_1",
      .next 3, .next 3])).any (fun d => d.store.issued.length = 4) = true := by
    decide +kernel
  obtain ⟨d, hrun, hlength⟩ := (Option.any_eq_true _ _).mp hrun
  exact ⟨d, hrun, of_decide_eq_true hlength, resets_lock_out (by decide +kernel) hrun⟩

/-- The old holder brings in a key with the token of before the reset, and refreshes with it. -/
theorem old_token_returns : ¬ ∀ (actions : List Action) (d : Hub),
    hub.run (unissued .active (some 0)) actions = some d → d.store.LockedOut := by
  intro hlocked
  have hrun : (hub.run (unissued .active (some 0)) (replaced ++ [.tick 1, .addKey ⟨jwtExpireSeconds, 0, 0⟩,
      .verifyAgent 2 3, .next 2, .next 2, .next 2, .refreshToken 3 .refresh 2 "n_1", .next 3, .next 3])).any (fun d =>
        ∃ t ∈ d.store.issued, t.party < d.store.epoch ∧ d.store.Accepts t.token) = true := by
    decide +kernel
  obtain ⟨d, hrun, haccepted⟩ := (Option.any_eq_true _ _).mp hrun
  obtain ⟨t, ht, hparty, haccepts⟩ := of_decide_eq_true haccepted
  exact (hlocked _ d hrun).tokens t ht hparty haccepts

end BotCord.Keys
