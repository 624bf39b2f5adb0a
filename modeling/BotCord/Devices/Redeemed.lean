import BotCord.Devices.Credentials

/-!
# Credentials are redeemed once

Each endpoint reads the mark of its credential in one statement and sets it in a later one, and the bundle of an approval waits in the row of its code. Where the mark is still as it was read and the instance of a waiting bundle still has its token, that is so.
-/

namespace BotCord.Devices

namespace Store

variable (s : Store)

/-- The bundle that was handed out last for an instance. -/
def latest (id : InstanceId) : Option Handout := s.handed.find? (·.bundle.instanceId = id)

structure Redeemed : Prop where
  once : (s.handed.map (·.credential)).Nodup
  stored : ∀ x ∈ s.instances, x.revokedAt = none → ∀ h ∈ s.latest x.id, x.refreshToken = some h.bundle.refreshToken
  approved : ∀ h ∈ s.handed, ∀ a ∈ s.approvals, h.credential = .device a.deviceCode →
    h.bundle.instanceId = a.instanceId ∧ h.bundle.userId = a.userId
  answered : ∀ h ∈ s.handed, ∀ deviceCode, h.credential = .device deviceCode →
    ∃ a ∈ s.approvals, a.deviceCode = deviceCode

def Stores (id : InstanceId) (token : Token) : Prop := ∀ x ∈ s.instances, x.id = id → x.refreshToken = some token
deriving Decidable

/-- What a call finds when it commits. -/
def Meets : Call → Prop
  | .ticket .. => True
  | .redeem t _ => ∀ row ∈ s.tickets, row.token = t.token → row.consumedAt = none
  | .poll code bundle =>
    (∀ row ∈ s.codes, row.deviceCode = code.deviceCode → row.status = .approved) ∧
      s.Stores bundle.instanceId bundle.refreshToken
  | .approve code _ => ∀ row ∈ s.codes, row.deviceCode = code.deviceCode → row.status = .pending
  | .refresh token x => s.Stores x.id token

instance : DecidablePred s.Meets := fun _ => by
  unfold Meets
  split <;> infer_instance

end Store

/-- The condition on a step. -/
def Hub.Orderly (d : Hub) : Action → Prop
  | .next i => ∀ call ∈ d.calls i, d.store.Meets call
  | _ => True

instance (d : Hub) : DecidablePred d.Orderly := fun _ => by
  unfold Hub.Orderly
  split <;> infer_instance

/-! ### The invariant -/

def Store.Spent (s : Store) : Credential → Prop
  | .install token => ∃ t ∈ s.tickets, t.token = token ∧ t.consumedAt ≠ none
  | .device deviceCode => ∃ c ∈ s.codes, c.deviceCode = deviceCode ∧ c.status = .consumed
  | .refresh token => token < s.drawn ∧ ∀ x ∈ s.instances, x.refreshToken ≠ some token

/-- What a device code says of its approvals. -/
structure DeviceCode.Fair (c : DeviceCode) (approvals : List Approval) : Prop where
  pending : c.status = .pending → ∀ a ∈ approvals, a.deviceCode ≠ c.deviceCode
  approved : c.status = .approved → ∃ a ∈ approvals, a.deviceCode = c.deviceCode
  issued : ∀ bundle ∈ c.issuedToken, ∀ a ∈ approvals, a.deviceCode = c.deviceCode →
    bundle.instanceId = a.instanceId ∧ bundle.userId = a.userId

structure Sound (s : Store) : Prop where
  ids : ∀ x ∈ s.instances, x.id < s.drawn
  tokens : ∀ x ∈ s.instances, ∀ token ∈ x.refreshToken, token < s.drawn
  handed : ∀ h ∈ s.handed, h.bundle.instanceId < s.drawn
  approvals : ∀ a ∈ s.approvals, a.deviceCode < s.drawn
  codes : ∀ c ∈ s.codes, c.deviceCode < s.drawn
  issued : ∀ c ∈ s.codes, ∀ bundle ∈ c.issuedToken, bundle.instanceId < s.drawn
  distinct : ∀ x ∈ s.instances, ∀ y ∈ s.instances, ∀ token ∈ x.refreshToken, token ∈ y.refreshToken → x = y
  fair : ∀ c ∈ s.codes, c.Fair s.approvals
  spent : ∀ h ∈ s.handed, s.Spent h.credential
  redeemed : s.Redeemed

def Call.Held (s : Store) : Call → Prop
  | .ticket t _ => ∃ row ∈ s.tickets, row.token = t.token
  | .redeem t existing => (∃ row ∈ s.tickets, row.token = t.token) ∧ ∀ x ∈ existing, ∃ y ∈ s.instances, y.id = x.id
  | .poll code bundle => bundle.instanceId < s.drawn ∧ ∃ row ∈ s.codes, row.deviceCode = code.deviceCode ∧
      row.status ≠ .pending ∧ (row.status = .approved → row.issuedToken = some bundle)
  | .approve code _ => ∃ row ∈ s.codes, row.deviceCode = code.deviceCode
  | .refresh _ x => ∃ y ∈ s.instances, y.id = x.id

structure Inv (d : Hub) : Prop where
  sound : Sound d.store
  calls : ∀ i call, d.calls i = some call → call.Held d.store

structure Keeps (s s' : Store) : Prop where
  drawn : s.drawn ≤ s'.drawn
  tickets : ∀ t ∈ s.tickets, ∃ t' ∈ s'.tickets, t'.token = t.token
  instances : ∀ x ∈ s.instances, ∃ x' ∈ s'.instances, x'.id = x.id
  codes : ∀ c ∈ s.codes, ∃ c' ∈ s'.codes, c'.deviceCode = c.deviceCode ∧
    (c.status ≠ .pending → c' = c ∨ c'.status = .consumed)

variable {d d' : Hub} {s s' : Store} {i : ℕ} {a : Action} {call : Call} {id : InstanceId} {token : Token}
  {t : InstallTicket} {x : Instance} {code : DeviceCode} {bundle : Bundle} {userId : UserId}

theorem Call.Held.mono (h : call.Held s) (hkeeps : Keeps s s') : call.Held s' := by
  cases call with
  | ticket t id =>
    obtain ⟨row, hrow, htoken⟩ := h
    obtain ⟨row', hrow', htoken'⟩ := hkeeps.tickets row hrow
    exact ⟨row', hrow', htoken'.trans htoken⟩
  | redeem t existing =>
    obtain ⟨⟨row, hrow, htoken⟩, hexisting⟩ := h
    obtain ⟨row', hrow', htoken'⟩ := hkeeps.tickets row hrow
    refine ⟨⟨row', hrow', htoken'.trans htoken⟩, fun x hx => ?_⟩
    obtain ⟨y, hy, hid⟩ := hexisting x hx
    obtain ⟨y', hy', hid'⟩ := hkeeps.instances y hy
    exact ⟨y', hy', hid'.trans hid⟩
  | poll code bundle =>
    obtain ⟨hbundle, row, hrow, hcode, hstatus, hissued⟩ := h
    obtain ⟨row', hrow', hcode', hsame⟩ := hkeeps.codes row hrow
    refine ⟨hbundle.trans_le hkeeps.drawn, row', hrow', hcode'.trans hcode, ?_⟩
    rcases hsame hstatus with rfl | hconsumed
    · exact ⟨hstatus, hissued⟩
    · rw [hconsumed]
      exact ⟨fun h => (by cases h), fun h => (by cases h)⟩
  | approve code userId =>
    obtain ⟨row, hrow, hcode⟩ := h
    obtain ⟨row', hrow', hcode', -⟩ := hkeeps.codes row hrow
    exact ⟨row', hrow', hcode'.trans hcode⟩
  | refresh token x =>
    obtain ⟨y, hy, hid⟩ := h
    obtain ⟨y', hy', hid'⟩ := hkeeps.instances y hy
    exact ⟨y', hy', hid'.trans hid⟩

theorem Keeps.refl (s : Store) : Keeps s s :=
  ⟨le_rfl, fun t ht => ⟨t, ht, rfl⟩, fun x hx => ⟨x, hx, rfl⟩, fun c hc => ⟨c, hc, rfl, fun _ => .inl rfl⟩⟩

theorem Inv.finish (h : Inv d) (hsound : Sound s') (hkeeps : Keeps d.store s') : Inv (d.finish i s') := by
  refine ⟨hsound, fun j call hj => ?_⟩
  rcases eq_or_ne j i with rfl | hne
  · cases (Function.update_self ..).symm.trans hj
  · exact (h.calls j call ((Function.update_of_ne hne ..).symm.trans hj)).mono hkeeps

theorem Inv.goto (h : Inv d) (hheld : call.Held d.store) : Inv (d.goto i call) := by
  refine ⟨h.sound, fun j call' hj => ?_⟩
  rcases eq_or_ne j i with rfl | hne
  · cases (Function.update_self ..).symm.trans hj
    exact hheld
  · exact h.calls j call' ((Function.update_of_ne hne ..).symm.trans hj)

/-! ### Instances -/

theorem mem_latest {h : Handout} (hlatest : h ∈ s.latest id) : h ∈ s.handed ∧ h.bundle.instanceId = id := by
  have hid := List.find?_some hlatest
  exact ⟨List.mem_of_find?_eq_some hlatest, of_decide_eq_true hid⟩

structure Gives (s : Store) (id : InstanceId) (token : Token) (s' : Store) : Prop where
  rows : ∀ x ∈ s'.instances, (x.id = id ∧ x.refreshToken = some token) ∨ (x ∈ s.instances ∧ x.id ≠ id)
  drawn : s.drawn ≤ s'.drawn
  id : id < s'.drawn
  new : s.drawn ≤ token
  token : token < s'.drawn

namespace Gives

variable (hgives : Gives s id token s') (h : Sound s)

include hgives

theorem refreshed {t : Token} (hspent : s.Spent (.refresh t)) : s'.Spent (.refresh t) := by
  refine ⟨hspent.1.trans_le hgives.drawn, fun x hx ht => ?_⟩
  rcases hgives.rows x hx with ⟨-, htoken⟩ | ⟨hx, -⟩
  · cases htoken.symm.trans ht
    exact absurd hspent.1 (not_lt_of_ge hgives.new)
  · exact hspent.2 x hx ht

include h

theorem ids : ∀ x ∈ s'.instances, x.id < s'.drawn := by
  intro x hx
  rcases hgives.rows x hx with ⟨rfl, -⟩ | ⟨hx, -⟩
  · exact hgives.id
  · exact (h.ids x hx).trans_le hgives.drawn

theorem tokens : ∀ x ∈ s'.instances, ∀ t ∈ x.refreshToken, t < s'.drawn := by
  intro x hx t ht
  rcases hgives.rows x hx with ⟨-, htoken⟩ | ⟨hx, -⟩
  · cases htoken.symm.trans ht
    exact hgives.token
  · exact (h.tokens x hx t ht).trans_le hgives.drawn

theorem distinct : ∀ x ∈ s'.instances, ∀ y ∈ s'.instances, ∀ t ∈ x.refreshToken, t ∈ y.refreshToken → x = y := by
  intro x hx y hy t htx hty
  have hnew := hgives.new
  rcases hgives.rows x hx with ⟨hxid, hxtoken⟩ | ⟨hx', -⟩ <;> rcases hgives.rows y hy with ⟨hyid, hytoken⟩ | ⟨hy', -⟩
  · exact Keyed.eq_of_key hx hy (hxid.trans hyid.symm)
  · cases hxtoken.symm.trans htx
    exact absurd (h.tokens y hy' token hty) (not_lt_of_ge hnew)
  · cases hytoken.symm.trans hty
    exact absurd (h.tokens x hx' token htx) (not_lt_of_ge hnew)
  · exact h.distinct x hx' y hy' t htx hty

theorem stored (hid : id = s.drawn) (hhanded : s'.handed = s.handed) :
    ∀ x ∈ s'.instances, x.revokedAt = none → ∀ y ∈ s'.latest x.id, x.refreshToken = some y.bundle.refreshToken := by
  intro x hx hlive y hy
  have hy : y ∈ s.latest x.id := by
    unfold Store.latest at hy ⊢
    exact hhanded ▸ hy
  rcases hgives.rows x hx with ⟨hnew, -⟩ | ⟨hx, -⟩
  · obtain ⟨hmem, heq⟩ := mem_latest hy
    exact absurd (h.handed y hmem) (by rw [heq, hnew, hid]; exact lt_irrefl _)
  · exact h.redeemed.stored x hx hlive y hy

end Gives

theorem gives_rotate (hid : id < s.drawn) : Gives s id s.drawn (s.rotate id) := by
  refine ⟨fun x hx => ?_, Nat.le_succ _, hid.trans (Nat.lt_succ_self _), le_rfl, Nat.lt_succ_self _⟩
  obtain ⟨y, hy, rfl⟩ := (Keyed.mem_modify fun x => x.id_rotate s.drawn s.now).mp hx
  split
  · rename_i hkey
    refine .inl ⟨(y.id_rotate _ _).trans hkey, ?_⟩
    cases hkind : y.kind <;> simp [Instance.rotate, hkind]
  · rename_i hkey
    exact .inr ⟨hy, hkey⟩

variable {expiresAt : Option Instant} {kind : InstanceKind}

theorem provision_eq_some
    (hprovision : s.provision kind userId expiresAt = some s') :
    s.instances.Adds { id := s.drawn, kind, userId, refreshToken := some (s.drawn + 1), refreshTokenExpiresAt := expiresAt }
      s'.instances ∧ s' = { s with instances := s'.instances, drawn := s.drawn + 2 } := by
  obtain ⟨instances, hinsert, rfl⟩ := Option.map_eq_some_iff.mp hprovision
  exact ⟨Keyed.insert?_eq_some hinsert, rfl⟩

theorem gives_provision
    (hprovision : s.provision kind userId expiresAt = some s') : Gives s s.drawn (s.drawn + 1) s' := by
  obtain ⟨hadds, hs'⟩ := provision_eq_some hprovision
  have hdrawn : s'.drawn = s.drawn + 2 := by rw [hs']
  refine ⟨fun x hx => ?_, hdrawn ▸ Nat.le_add_right _ _, hdrawn ▸ Nat.lt_add_of_pos_right (by decide), Nat.le_succ _,
    hdrawn ▸ Nat.lt_succ_self _⟩
  rcases hadds.mem_iff.mp hx with hx | rfl
  · exact .inr ⟨hx, hadds.new x hx⟩
  · exact .inl ⟨rfl, rfl⟩

theorem spent_mono {credential : Credential} (h : s.Spent credential)
    (hinstall : ∀ k, s.Spent (.install k) → s'.Spent (.install k))
    (hdevice : ∀ k, s.Spent (.device k) → s'.Spent (.device k))
    (hrefresh : ∀ k, s.Spent (.refresh k) → s'.Spent (.refresh k)) : s'.Spent credential := by
  cases credential with
  | install token => exact hinstall token h
  | device deviceCode => exact hdevice deviceCode h
  | refresh token => exact hrefresh token h

theorem installed_congr (htickets : s'.tickets = s.tickets) (k : Token) (h : s.Spent (.install k)) :
    s'.Spent (.install k) := by
  unfold Store.Spent
  rw [htickets]
  exact h

theorem polled_congr (hcodes : s'.codes = s.codes) (k : Token) (h : s.Spent (.device k)) : s'.Spent (.device k) := by
  unfold Store.Spent
  rw [hcodes]
  exact h

theorem redeemed_congr (h : s.Redeemed) (hinstances : s'.instances = s.instances) (hhanded : s'.handed = s.handed)
    (happrovals : s'.approvals = s.approvals) : s'.Redeemed := by
  refine ⟨?_, ?_, ?_, ?_⟩
  · rw [hhanded]
    exact h.once
  · unfold Store.latest
    rw [hinstances, hhanded]
    exact h.stored
  · rw [hhanded, happrovals]
    exact h.approved
  · rw [hhanded, happrovals]
    exact h.answered

theorem sound_hand (h : Sound s) (credential : Credential) (bundle : Bundle) (hgives : Gives s bundle.instanceId bundle.refreshToken s')
    (hhanded : s'.handed = ⟨credential, bundle⟩ :: s.handed) (hcodes : s'.codes = s.codes)
    (happrovals : s'.approvals = s.approvals) (hnew : ∀ h ∈ s.handed, h.credential ≠ credential)
    (hinstalled : ∀ t, s.Spent (.install t) → s'.Spent (.install t)) (hspent : s'.Spent credential)
    (hcredential : ∀ deviceCode, credential ≠ .device deviceCode) : Sound s' := by
  refine ⟨hgives.ids h, hgives.tokens h, fun x hx => ?_, fun a ha => ?_, fun c hc => ?_, fun c hc b hb => ?_,
    hgives.distinct h, fun c hc => ?_, fun x hx => ?_,
    ⟨?_, fun x hx hlive y hy => ?_, fun x hx a ha hdevice => ?_, fun x hx deviceCode hdevice => ?_⟩⟩
  · rw [hhanded] at hx
    rcases List.mem_cons.mp hx with rfl | hx
    · exact hgives.id
    · exact (h.handed x hx).trans_le hgives.drawn
  · exact (h.approvals a (happrovals ▸ ha)).trans_le hgives.drawn
  · exact (h.codes c (hcodes ▸ hc)).trans_le hgives.drawn
  · exact (h.issued c (hcodes ▸ hc) b hb).trans_le hgives.drawn
  · exact happrovals ▸ h.fair c (hcodes ▸ hc)
  · rw [hhanded] at hx
    rcases List.mem_cons.mp hx with rfl | hx
    · exact hspent
    · exact spent_mono (h.spent x hx) hinstalled (polled_congr hcodes) fun _ => hgives.refreshed
  · rw [hhanded, List.map_cons, List.nodup_cons]
    refine ⟨fun hmem => ?_, h.redeemed.once⟩
    obtain ⟨x, hx, heq⟩ := List.mem_map.mp hmem
    exact hnew x hx heq
  · unfold Store.latest at hy
    rw [hhanded, List.find?_cons] at hy
    rcases hgives.rows x hx with ⟨hid, htoken⟩ | ⟨hx, hne⟩
    · simp only [hid, decide_true] at hy
      cases hy
      exact htoken
    · simp only [hne.symm, decide_false] at hy
      exact h.redeemed.stored x hx hlive y hy
  · rw [hhanded] at hx
    rcases List.mem_cons.mp hx with rfl | hx
    · exact absurd hdevice (hcredential _)
    · exact h.redeemed.approved x hx a (happrovals ▸ ha) hdevice
  · rw [hhanded] at hx
    rcases List.mem_cons.mp hx with rfl | hx
    · exact absurd hdevice (hcredential _)
    · exact happrovals ▸ h.redeemed.answered x hx deviceCode hdevice

/-! ### Commits -/

theorem mem_consumeTicket {t' : InstallTicket} :
    t' ∈ (s.consumeTicket t id).tickets ↔
      ∃ row ∈ s.tickets, (if row.token = t.token then row.consume s.now id else row) = t' :=
  Keyed.mem_modify fun row => row.token_consume s.now id

theorem installed_consumeTicket {k : Token} (h : s.Spent (.install k)) : (s.consumeTicket t id).Spent (.install k) := by
  obtain ⟨row, hrow, htoken, hconsumed⟩ := h
  refine ⟨_, mem_consumeTicket.mpr ⟨row, hrow, rfl⟩, ?_, ?_⟩
  · split <;> exact htoken
  · split
    · exact fun h => (by cases h)
    · exact hconsumed

theorem consumed_consumeTicket (h : ∃ row ∈ s.tickets, row.token = t.token) :
    (s.consumeTicket t id).Spent (.install t.token) := by
  obtain ⟨row, hrow, htoken⟩ := h
  refine ⟨_, mem_consumeTicket.mpr ⟨row, hrow, rfl⟩, ?_, ?_⟩ <;> rw [if_pos htoken]
  · exact htoken
  · exact fun h => (by cases h)

theorem keeps_consumeTicket (hkeeps : Keeps s s') : Keeps s (s'.consumeTicket t id) := by
  refine ⟨hkeeps.drawn, fun row hrow => ?_, hkeeps.instances, hkeeps.codes⟩
  obtain ⟨row', hrow', htoken⟩ := hkeeps.tickets row hrow
  refine ⟨_, mem_consumeTicket.mpr ⟨row', hrow', rfl⟩, ?_⟩
  split <;> exact htoken

theorem Keeps.hand (h : Keeps s s') {credential : Credential} : Keeps s (s'.hand credential bundle) :=
  ⟨h.drawn, h.tickets, h.instances, h.codes⟩

theorem keeps_rotate : Keeps s (s.rotate id) := by
  have hkeeps := Keeps.refl s
  refine ⟨Nat.le_succ _, hkeeps.tickets, fun x hx => ?_, hkeeps.codes⟩
  refine ⟨_, Keyed.mem_modify_of_mem (fun x => x.id_rotate s.drawn s.now) hx, ?_⟩
  split
  · exact x.id_rotate _ _
  · rfl

theorem keeps_provision
    (hprovision : s.provision kind userId expiresAt = some s') : Keeps s s' := by
  obtain ⟨hadds, hs'⟩ := provision_eq_some hprovision
  have hkeeps := Keeps.refl s
  rw [hs']
  exact ⟨Nat.le_add_right _ _, hkeeps.tickets, fun x hx => ⟨x, hadds.mem_iff.mpr (.inl hx), rfl⟩, hkeeps.codes⟩

theorem not_installed (h : Sound s)
    (hmeets : ∀ row ∈ s.tickets, row.token = t.token → row.consumedAt = none) :
    ∀ x ∈ s.handed, x.credential ≠ .install t.token := by
  intro x hx heq
  have hspent := h.spent x hx
  rw [heq] at hspent
  obtain ⟨row, hrow, htoken, hconsumed⟩ := hspent
  exact hconsumed (hmeets row hrow htoken)

theorem commit_redeem (h : Sound s) {existing : Option Instance} (hheld : Call.Held s (.redeem t existing))
    (hmeets : s.Meets (.redeem t existing)) (hredeem : s.redeem t existing = some s') : Sound s' ∧ Keeps s s' := by
  obtain ⟨hrow, hexisting⟩ := hheld
  have hnew := not_installed h hmeets
  cases existing with
  | none =>
    obtain ⟨s₁, hprovision, rfl⟩ := Option.map_eq_some_iff.mp hredeem
    obtain ⟨-, hs₁⟩ := provision_eq_some hprovision
    have hgives := gives_provision hprovision
    have htickets : s₁.tickets = s.tickets := by rw [hs₁]
    refine ⟨sound_hand h (.install t.token) ⟨t.userId, s.drawn, s.drawn + 1⟩
      ⟨hgives.rows, hgives.drawn, hgives.id, hgives.new, hgives.token⟩ ?_ ?_ ?_ hnew (fun k hk => ?_) ?_
      fun _ h => (by cases h), (keeps_consumeTicket (keeps_provision hprovision)).hand⟩
    · rw [hs₁]
      rfl
    · rw [hs₁]
      rfl
    · rw [hs₁]
      rfl
    · exact installed_consumeTicket (s := s₁) (installed_congr htickets k hk)
    · exact consumed_consumeTicket (s := s₁) (htickets ▸ hrow)
  | some x =>
    cases hredeem
    obtain ⟨y, hy, hid⟩ := hexisting x rfl
    have hgives : Gives s x.id s.drawn (s.rotate x.id) := gives_rotate (hid ▸ h.ids y hy)
    refine ⟨sound_hand h (.install t.token) ⟨t.userId, x.id, s.drawn⟩
      ⟨hgives.rows, hgives.drawn, hgives.id, hgives.new, hgives.token⟩ rfl rfl rfl hnew (fun k hk => ?_) ?_
      fun _ h => (by cases h), (keeps_consumeTicket keeps_rotate).hand⟩
    · exact installed_consumeTicket (s := s.rotate x.id) hk
    · exact consumed_consumeTicket (s := s.rotate x.id) hrow

theorem commit_refresh (h : Sound s) (hheld : Call.Held s (.refresh token x)) (hmeets : s.Meets (.refresh token x)) :
    Sound (s.refresh token x) ∧ Keeps s (s.refresh token x) := by
  obtain ⟨y, hy, hid⟩ := hheld
  have hstored : y.refreshToken = some token := hmeets y hy hid
  have hlt : token < s.drawn := h.tokens y hy token hstored
  have hgives : Gives s x.id s.drawn (s.rotate x.id) := gives_rotate (hid ▸ h.ids y hy)
  refine ⟨sound_hand h (.refresh token) ⟨x.userId, x.id, s.drawn⟩
    ⟨hgives.rows, hgives.drawn, hgives.id, hgives.new, hgives.token⟩ rfl rfl rfl (fun z hz heq => ?_) (fun _ h => h)
    ⟨hlt.trans_le hgives.drawn, fun z hz htoken => ?_⟩ fun _ h => (by cases h), keeps_rotate.hand⟩
  · have hspent := h.spent z hz
    rw [heq] at hspent
    exact hspent.2 y hy hstored
  · rcases hgives.rows z hz with ⟨-, hnew⟩ | ⟨hz, hne⟩
    · cases hnew.symm.trans htoken
      exact absurd hlt (lt_irrefl _)
    · exact hne ((congrArg Instance.id (h.distinct z hz y hy token htoken hstored)).trans hid)

theorem mem_consume {c' : DeviceCode} :
    c' ∈ (s.poll code bundle).codes ↔
      ∃ c ∈ s.codes, (if c.deviceCode = code.deviceCode then c.consume else c) = c' :=
  Keyed.mem_modify DeviceCode.deviceCode_consume

theorem commit_poll (h : Sound s) (hheld : Call.Held s (.poll code bundle)) (hmeets : s.Meets (.poll code bundle)) :
    Sound (s.poll code bundle) ∧ Keeps s (s.poll code bundle) := by
  obtain ⟨hbundle, row, hrow, hcode, -, hissued⟩ := hheld
  obtain ⟨happroved, hstores⟩ := hmeets
  have hissued := hissued (happroved row hrow hcode)
  have hfair := h.fair row hrow
  have hcodes : ∀ c' ∈ (s.poll code bundle).codes, (∃ c ∈ s.codes, c' = c.consume) ∨ c' ∈ s.codes := by
    intro c' hc'
    obtain ⟨c, hc, rfl⟩ := mem_consume.mp hc'
    split
    · exact .inl ⟨c, hc, rfl⟩
    · exact .inr hc
  have hnew : ∀ x ∈ s.handed, x.credential ≠ .device code.deviceCode := by
    intro x hx heq
    have hspent := h.spent x hx
    rw [heq] at hspent
    obtain ⟨c, hc, hkey, hconsumed⟩ := hspent
    rw [happroved c hc hkey] at hconsumed
    cases hconsumed
  refine ⟨⟨h.ids, h.tokens, fun x hx => ?_, h.approvals, fun c' hc' => ?_, fun c' hc' b hb => ?_, h.distinct,
    fun c' hc' => ?_, fun x hx => ?_,
    ⟨?_, fun x hx hlive y hy => ?_, fun x hx a ha hdevice => ?_, fun x hx deviceCode hdevice => ?_⟩⟩, ?_⟩
  · rcases List.mem_cons.mp hx with rfl | hx
    · exact hbundle
    · exact h.handed x hx
  · rcases hcodes c' hc' with ⟨c, hc, rfl⟩ | hc
    · exact h.codes c hc
    · exact h.codes c' hc
  · rcases hcodes c' hc' with ⟨c, -, rfl⟩ | hc
    · cases hb
    · exact h.issued c' hc b hb
  · rcases hcodes c' hc' with ⟨c, -, rfl⟩ | hc
    · exact ⟨fun h => (by cases h), fun h => (by cases h), fun _ h => (by cases h)⟩
    · exact h.fair c' hc
  · rcases List.mem_cons.mp hx with rfl | hx
    · refine ⟨row.consume, mem_consume.mpr ⟨row, hrow, if_pos hcode⟩, hcode, rfl⟩
    · refine spent_mono (h.spent x hx) (fun _ h => h) (fun deviceCode hspent => ?_) fun _ h => h
      obtain ⟨c, hc, hkey, hconsumed⟩ := hspent
      refine ⟨_, mem_consume.mpr ⟨c, hc, rfl⟩, ?_, ?_⟩
      · split <;> exact hkey
      · split
        · rfl
        · exact hconsumed
  · show (_ :: s.handed.map (·.credential)).Nodup
    rw [List.nodup_cons]
    refine ⟨fun hmem => ?_, h.redeemed.once⟩
    obtain ⟨x, hx, heq⟩ := List.mem_map.mp hmem
    exact hnew x hx heq
  · unfold Store.latest at hy
    rw [show (s.poll code bundle).handed = ⟨.device code.deviceCode, bundle⟩ :: s.handed from rfl, List.find?_cons] at hy
    by_cases hid : bundle.instanceId = x.id
    · simp only [hid, decide_true] at hy
      cases hy
      exact hstores x hx hid.symm
    · simp only [hid, decide_false] at hy
      exact h.redeemed.stored x hx hlive y hy
  · rcases List.mem_cons.mp hx with rfl | hx
    · have hkey : code.deviceCode = a.deviceCode := Credential.device.inj hdevice
      exact hfair.issued bundle hissued a ha (hkey.symm.trans hcode.symm)
    · exact h.redeemed.approved x hx a ha hdevice
  · rcases List.mem_cons.mp hx with rfl | hx
    · cases hdevice
      obtain ⟨a, ha, hkey⟩ := hfair.approved (happroved row hrow hcode)
      exact ⟨a, ha, hkey.trans hcode⟩
    · exact h.redeemed.answered x hx deviceCode hdevice
  · have hkeeps := Keeps.refl s
    refine ⟨hkeeps.drawn, hkeeps.tickets, hkeeps.instances, fun c hc => ?_⟩
    refine ⟨_, mem_consume.mpr ⟨c, hc, rfl⟩, ?_, fun _ => ?_⟩
    · split <;> rfl
    · split
      · exact .inr rfl
      · exact .inl rfl

theorem commit_approve (h : Sound s) (hheld : Call.Held s (.approve code userId))
    (hmeets : s.Meets (.approve code userId)) (happrove : s.approve code userId = some s') : Sound s' ∧ Keeps s s' := by
  obtain ⟨row, hrow, hcode⟩ := hheld
  obtain ⟨s₁, hprovision, rfl⟩ := Option.map_eq_some_iff.mp happrove
  obtain ⟨hadds, hs₁⟩ := provision_eq_some hprovision
  have hgives := gives_provision hprovision
  have hkeeps := keeps_provision hprovision
  have hdrawn : s₁.drawn = s.drawn + 2 := by rw [hs₁]
  have htickets : s₁.tickets = s.tickets := by rw [hs₁]
  have hhanded : s₁.handed = s.handed := by rw [hs₁]
  have hgives : Gives s s.drawn (s.drawn + 1)
      { s₁ with
        codes := s.codes.modify (·.deviceCode = code.deviceCode) (·.approve ⟨userId, s.drawn, s.drawn + 1⟩)
          (·.deviceCode_approve ⟨userId, s.drawn, s.drawn + 1⟩)
        approvals := ⟨code.deviceCode, userId, s.drawn⟩ :: s.approvals } :=
    ⟨hgives.rows, hgives.drawn, hgives.id, hgives.new, hgives.token⟩
  have hmem : ∀ c', c' ∈ s.codes.modify (·.deviceCode = code.deviceCode) (·.approve ⟨userId, s.drawn, s.drawn + 1⟩)
      (·.deviceCode_approve ⟨userId, s.drawn, s.drawn + 1⟩) ↔
        ∃ c ∈ s.codes, (if c.deviceCode = code.deviceCode then c.approve ⟨userId, s.drawn, s.drawn + 1⟩ else c) = c' :=
    fun c' => Keyed.mem_modify (·.deviceCode_approve ⟨userId, s.drawn, s.drawn + 1⟩)
  have hspent : ∀ c ∈ s.codes, c.deviceCode = code.deviceCode → c.status ≠ .consumed := by
    intro c hc hkey hconsumed
    rw [hmeets c hc hkey] at hconsumed
    cases hconsumed
  have hnone : ∀ x ∈ s.handed, x.credential ≠ .device code.deviceCode := by
    intro x hx heq
    have hold := h.spent x hx
    rw [heq] at hold
    obtain ⟨c, hc, hkey, hconsumed⟩ := hold
    exact hspent c hc hkey hconsumed
  refine ⟨⟨hgives.ids h, hgives.tokens h, fun x hx => ?_, fun a ha => ?_, fun c' hc' => ?_, fun c' hc' b hb => ?_,
    hgives.distinct h, fun c' hc' => ?_, fun x hx => ?_,
    ⟨?_, hgives.stored h rfl hhanded, fun x hx a ha hdevice => ?_, fun x hx deviceCode hdevice => ?_⟩⟩, ?_⟩
  · exact (h.handed x (hhanded ▸ hx)).trans_le hgives.drawn
  · rcases List.mem_cons.mp ha with rfl | ha
    · exact (hcode ▸ h.codes row hrow).trans_le hgives.drawn
    · exact (h.approvals a ha).trans_le hgives.drawn
  · obtain ⟨c, hc, rfl⟩ := (hmem c').mp hc'
    have hlt := (h.codes c hc).trans_le hgives.drawn
    split <;> exact hlt
  · obtain ⟨c, hc, rfl⟩ := (hmem c').mp hc'
    split at hb
    · cases hb
      exact hgives.id
    · exact (h.issued c hc b hb).trans_le hgives.drawn
  · obtain ⟨c, hc, rfl⟩ := (hmem c').mp hc'
    have hfair := h.fair c hc
    split
    · rename_i hkey
      refine ⟨fun h => (by cases h), fun _ => ⟨_, List.mem_cons_self, hkey.symm⟩, fun b hb a ha hkey' => ?_⟩
      cases hb
      rcases List.mem_cons.mp ha with rfl | ha
      · exact ⟨rfl, rfl⟩
      · exact absurd hkey' (hfair.pending (hmeets c hc hkey) a ha)
    · rename_i hkey
      refine ⟨fun hpending a ha => ?_, fun happroved => ?_, fun b hb a ha hkey' => ?_⟩
      · rcases List.mem_cons.mp ha with rfl | ha
        · exact fun heq => hkey heq.symm
        · exact hfair.pending hpending a ha
      · obtain ⟨a, ha, hkey'⟩ := hfair.approved happroved
        exact ⟨a, List.mem_cons_of_mem _ ha, hkey'⟩
      · rcases List.mem_cons.mp ha with rfl | ha
        · exact absurd hkey'.symm hkey
        · exact hfair.issued b hb a ha hkey'
  · refine spent_mono (h.spent x (hhanded ▸ hx)) (installed_congr htickets) (fun deviceCode hold => ?_) fun _ => hgives.refreshed
    obtain ⟨c, hc, hkey, hconsumed⟩ := hold
    exact ⟨c, (hmem c).mpr ⟨c, hc, if_neg fun heq => hspent c hc heq hconsumed⟩, hkey, hconsumed⟩
  · show (s₁.handed.map (·.credential)).Nodup
    rw [hhanded]
    exact h.redeemed.once
  · have hx : x ∈ s.handed := hhanded ▸ hx
    rcases List.mem_cons.mp ha with rfl | ha
    · exact absurd hdevice (hnone x hx)
    · exact h.redeemed.approved x hx a ha hdevice
  · obtain ⟨a, ha, hkey⟩ := h.redeemed.answered x (hhanded ▸ hx) deviceCode hdevice
    exact ⟨a, List.mem_cons_of_mem _ ha, hkey⟩
  · refine ⟨hkeeps.drawn, hkeeps.tickets, hkeeps.instances, fun c hc => ?_⟩
    refine ⟨_, (hmem _).mpr ⟨c, hc, rfl⟩, ?_, fun hstatus => ?_⟩
    · split <;> rfl
    · split
      · rename_i hkey
        exact absurd (hmeets c hc hkey) hstatus
      · exact .inl rfl

/-! ### Steps -/

/-- Instances change so that none has a token that it had not, nor one that was handed out. -/
theorem sound_revoke (h : Sound s) :
    Sound { s with instances := s.instances.modify (·.id = id) (·.revoke s.now) (·.id_revoke s.now) } := by
  have hmem : ∀ x' ∈ s.instances.modify (·.id = id) (·.revoke s.now) (·.id_revoke s.now), ∃ x ∈ s.instances,
      x.id = x'.id ∧ (∀ token ∈ x'.refreshToken, token ∈ x.refreshToken) ∧
        (x'.revokedAt = none → x.revokedAt = none ∧ x'.refreshToken = x.refreshToken) := by
    intro x' hx'
    obtain ⟨x, hx, rfl⟩ := (Keyed.mem_modify fun x => x.id_revoke s.now).mp hx'
    refine ⟨x, hx, ?_⟩
    split
    · refine ⟨(x.id_revoke s.now).symm, ?_⟩
      cases hkind : x.kind with
      | daemon =>
        simp only [Instance.revoke, hkind]
        split
        · exact ⟨fun _ h => (by cases h), fun h => (by cases h)⟩
        · exact ⟨fun _ h => h, fun h => ⟨h, rfl⟩⟩
      | openclaw =>
        simp only [Instance.revoke, hkind]
        exact ⟨fun _ h => (by cases h), fun h => (by cases h)⟩
    · exact ⟨rfl, fun _ h => h, fun h => ⟨h, rfl⟩⟩
  refine ⟨fun x' hx' => ?_, fun x' hx' token ht => ?_, h.handed, h.approvals, h.codes, h.issued,
    fun x' hx' y' hy' token htx hty => ?_, h.fair, fun z hz => ?_,
    ⟨h.redeemed.once, fun x' hx' hlive z hz => ?_, h.redeemed.approved, h.redeemed.answered⟩⟩
  · obtain ⟨x, hx, hid, -⟩ := hmem x' hx'
    exact hid ▸ h.ids x hx
  · obtain ⟨x, hx, -, htokens, -⟩ := hmem x' hx'
    exact h.tokens x hx token (htokens token ht)
  · obtain ⟨x, hx, hxid, hxtokens, -⟩ := hmem x' hx'
    obtain ⟨y, hy, hyid, hytokens, -⟩ := hmem y' hy'
    have heq := h.distinct x hx y hy token (hxtokens token htx) (hytokens token hty)
    subst heq
    exact Keyed.eq_of_key hx' hy' (hxid.symm.trans hyid)
  · refine spent_mono (h.spent z hz) (fun _ h => h) (fun _ h => h) fun token hold => ⟨hold.1, fun x' hx' ht => ?_⟩
    obtain ⟨x, hx, -, htokens, -⟩ := hmem x' hx'
    exact hold.2 x hx (htokens token ht)
  · obtain ⟨x, hx, hid, -, hsame⟩ := hmem x' hx'
    obtain ⟨hlive, hsame⟩ := hsame hlive
    rw [hsame]
    exact h.redeemed.stored x hx hlive z (hid ▸ hz)

theorem keeps_revoke :
    Keeps s { s with instances := s.instances.modify (·.id = id) (·.revoke s.now) (·.id_revoke s.now) } := by
  have hkeeps := Keeps.refl s
  refine ⟨hkeeps.drawn, hkeeps.tickets, fun x hx => ?_, hkeeps.codes⟩
  refine ⟨_, Keyed.mem_modify_of_mem (fun x => x.id_revoke s.now) hx, ?_⟩
  split
  · exact x.id_revoke s.now
  · rfl

theorem sound_provision (h : Sound s)
    (hprovision : s.provision kind userId expiresAt = some s') : Sound s' := by
  have hgives := gives_provision hprovision
  obtain ⟨-, hs'⟩ := provision_eq_some hprovision
  have hhanded : s'.handed = s.handed := by rw [hs']
  have hcodes : s'.codes = s.codes := by rw [hs']
  have htickets : s'.tickets = s.tickets := by rw [hs']
  have happrovals : s'.approvals = s.approvals := by rw [hs']
  refine ⟨hgives.ids h, hgives.tokens h, fun x hx => ?_, fun a ha => ?_, fun c hc => ?_, fun c hc b hb => ?_,
    hgives.distinct h, fun c hc => ?_, fun x hx => ?_, ⟨?_, hgives.stored h rfl hhanded, ?_, ?_⟩⟩
  · exact (h.handed x (hhanded ▸ hx)).trans_le hgives.drawn
  · exact (h.approvals a (happrovals ▸ ha)).trans_le hgives.drawn
  · exact (h.codes c (hcodes ▸ hc)).trans_le hgives.drawn
  · exact (h.issued c (hcodes ▸ hc) b hb).trans_le hgives.drawn
  · exact happrovals ▸ h.fair c (hcodes ▸ hc)
  · exact spent_mono (h.spent x (hhanded ▸ hx)) (installed_congr htickets) (polled_congr hcodes) fun _ => hgives.refreshed
  · rw [hhanded]
    exact h.redeemed.once
  · rw [hhanded, happrovals]
    exact h.redeemed.approved
  · rw [hhanded, happrovals]
    exact h.redeemed.answered

theorem outside_sound (h : Sound s) (houtside : s.outside a = some s') : Sound s' ∧ Keeps s s' := by
  have hkeeps := Keeps.refl s
  cases a with
  | tick seconds =>
    cases houtside
    exact ⟨⟨h.ids, h.tokens, h.handed, h.approvals, h.codes, h.issued, h.distinct, h.fair, h.spent,
      redeemed_congr h.redeemed rfl rfl rfl⟩, ⟨hkeeps.drawn, hkeeps.tickets, hkeeps.instances, hkeeps.codes⟩⟩
  | issueInstallTicket userId daemonInstanceId =>
    obtain ⟨tickets, hinsert, rfl⟩ := Option.map_eq_some_iff.mp houtside
    have hadds := Keyed.insert?_eq_some hinsert
    have hle : s.drawn ≤ s.drawn + 1 := Nat.le_succ _
    refine ⟨⟨fun x hx => (h.ids x hx).trans_le hle, fun x hx t ht => (h.tokens x hx t ht).trans_le hle,
      fun x hx => (h.handed x hx).trans_le hle, fun x hx => (h.approvals x hx).trans_le hle,
      fun c hc => (h.codes c hc).trans_le hle, fun c hc b hb => (h.issued c hc b hb).trans_le hle, h.distinct, h.fair,
      fun x hx => ?_, redeemed_congr h.redeemed rfl rfl rfl⟩,
      ⟨hle, fun t ht => ⟨t, hadds.mem_iff.mpr (.inl ht), rfl⟩, hkeeps.instances, hkeeps.codes⟩⟩
    refine spent_mono (h.spent x hx) (fun k hold => ?_) (fun _ h => h) fun _ hold => ⟨hold.1.trans_le hle, hold.2⟩
    obtain ⟨t, ht, hrest⟩ := hold
    exact ⟨t, hadds.mem_iff.mpr (.inl ht), hrest⟩
  | issueDeviceCode userCode =>
    obtain ⟨-, houtside⟩ := Option.ite_none_left_eq_some.mp houtside
    obtain ⟨codes, hinsert, rfl⟩ := Option.map_eq_some_iff.mp houtside
    have hadds := Keyed.insert?_eq_some hinsert
    have hle : s.drawn ≤ s.drawn + 1 := Nat.le_succ _
    refine ⟨⟨fun x hx => (h.ids x hx).trans_le hle, fun x hx t ht => (h.tokens x hx t ht).trans_le hle,
      fun x hx => (h.handed x hx).trans_le hle, fun x hx => (h.approvals x hx).trans_le hle, fun c hc => ?_,
      fun c hc b hb => ?_, h.distinct, fun c hc => ?_, fun x hx => ?_, redeemed_congr h.redeemed rfl rfl rfl⟩,
      ⟨hle, hkeeps.tickets, hkeeps.instances, fun c hc => ⟨c, hadds.mem_iff.mpr (.inl hc), rfl, fun _ => .inl rfl⟩⟩⟩
    · rcases hadds.mem_iff.mp hc with hc | rfl
      · exact (h.codes c hc).trans_le hle
      · exact Nat.lt_succ_self _
    · rcases hadds.mem_iff.mp hc with hc | rfl
      · exact (h.issued c hc b hb).trans_le hle
      · cases hb
    · rcases hadds.mem_iff.mp hc with hc | rfl
      · exact h.fair c hc
      · exact ⟨fun _ a ha heq => absurd (h.approvals a ha) (by rw [heq]; exact lt_irrefl _), fun h => (by cases h),
          fun _ h => (by cases h)⟩
    · refine spent_mono (h.spent x hx) (fun _ h => h) (fun k hold => ?_) fun _ hold => ⟨hold.1.trans_le hle, hold.2⟩
      obtain ⟨c, hc, hrest⟩ := hold
      exact ⟨c, hadds.mem_iff.mpr (.inl hc), hrest⟩
  | installHost userId => exact ⟨sound_provision h houtside, keeps_provision houtside⟩
  | revokeInstance id =>
    cases houtside
    exact ⟨sound_revoke h, keeps_revoke⟩
  | redeemInstallToken | pollDeviceToken | approveDeviceCode | refreshDaemonToken | openclawRefreshToken | next | crash =>
    cases houtside

theorem Inv.outside (h : Inv d) (hstep : (d.store.outside a).map (fun store => { d with store }) = some d') : Inv d' := by
  obtain ⟨s', houtside, rfl⟩ := Option.map_eq_some_iff.mp hstep
  obtain ⟨hsound, hkeeps⟩ := outside_sound h.sound houtside
  exact ⟨hsound, fun i call hcall => (h.calls i call hcall).mono hkeeps⟩

theorem Inv.begin (h : Inv d) (hheld : call.Held d.store) (hbegin : d.begin i call = some d') : Inv d' := by
  obtain ⟨-, hbegin⟩ := Option.ite_none_right_eq_some.mp hbegin
  cases hbegin
  exact h.goto hheld

theorem held_refresh (h : s.refreshable kind token = some x) : Call.Held s (.refresh token x) :=
  ⟨x, List.mem_of_find?_eq_some (Option.filter_eq_some_iff.mp h).1, rfl⟩

theorem step_next (h : Inv d) (hmeets : d.Orderly (.next i)) (hstep : hub.step d (.next i) = some d') : Inv d' := by
  simp only [hub] at hstep
  split at hstep
  · cases hstep
  · rename_i t id hcall
    have hheld := h.calls i _ hcall
    split at hstep
    · rename_i x hx
      cases hstep
      refine h.goto ⟨hheld, fun y hy => ?_⟩
      cases hy
      exact ⟨x, (Keyed.get?_eq_some_iff.mp (Option.filter_eq_some_iff.mp hx).1).1, rfl⟩
    · cases hstep
      exact h.finish h.sound (Keeps.refl _)
  · rename_i t existing hcall
    obtain ⟨s', hredeem, rfl⟩ := Option.map_eq_some_iff.mp hstep
    obtain ⟨hsound, hkeeps⟩ := commit_redeem h.sound (h.calls i _ hcall) (hmeets _ hcall) hredeem
    exact h.finish hsound hkeeps
  · rename_i code bundle hcall
    cases hstep
    obtain ⟨hsound, hkeeps⟩ := commit_poll h.sound (h.calls i _ hcall) (hmeets _ hcall)
    exact h.finish hsound hkeeps
  · rename_i code userId hcall
    obtain ⟨s', happrove, rfl⟩ := Option.map_eq_some_iff.mp hstep
    obtain ⟨hsound, hkeeps⟩ := commit_approve h.sound (h.calls i _ hcall) (hmeets _ hcall) happrove
    exact h.finish hsound hkeeps
  · rename_i token x hcall
    cases hstep
    obtain ⟨hsound, hkeeps⟩ := commit_refresh h.sound (h.calls i _ hcall) (hmeets _ hcall)
    exact h.finish hsound hkeeps

theorem step_inv (h : Inv d) (hmeets : d.Orderly a) (hstep : hub.step d a = some d') : Inv d' := by
  cases a with
  | redeemInstallToken i token daemonInstanceId =>
    simp only [hub] at hstep
    split at hstep
    · cases hstep
    · rename_i t ht
      have hmem := (Keyed.get?_eq_some_iff.mp (Option.filter_eq_some_iff.mp ht).1).1
      split at hstep
      · have hheld : Call.Held d.store (.redeem t none) := ⟨⟨t, hmem, rfl⟩, fun _ h => (by cases h)⟩
        exact h.begin hheld hstep
      · rename_i id _
        have hheld : Call.Held d.store (.ticket t id) := ⟨t, hmem, rfl⟩
        exact h.begin hheld hstep
  | pollDeviceToken i deviceCode =>
    simp only [hub] at hstep
    split at hstep
    · cases hstep
    · rename_i c hc
      obtain ⟨bundle, hbundle, hbegin⟩ := Option.bind_eq_some_iff.mp hstep
      obtain ⟨hfound, hchecked⟩ := Option.filter_eq_some_iff.mp hc
      have hmem := (Keyed.get?_eq_some_iff.mp hfound).1
      have happroved : c.status = .approved := (of_decide_eq_true hchecked).2
      have hheld : Call.Held d.store (.poll c bundle) := by
        refine ⟨h.sound.issued c hmem bundle hbundle, c, hmem, rfl, ?_, fun _ => hbundle⟩
        rw [happroved]
        exact fun h => (by cases h)
      exact h.begin hheld hbegin
  | approveDeviceCode i userCode userId =>
    simp only [hub] at hstep
    split at hstep
    · cases hstep
    · rename_i c hc
      obtain ⟨-, hbegin⟩ := Option.ite_none_right_eq_some.mp hstep
      have hheld : Call.Held d.store (.approve c userId) := ⟨c, List.mem_of_find?_eq_some hc, rfl⟩
      exact h.begin hheld hbegin
  | refreshDaemonToken i token =>
    obtain ⟨x, hx, hbegin⟩ := Option.bind_eq_some_iff.mp hstep
    exact h.begin (held_refresh hx) hbegin
  | openclawRefreshToken i token =>
    obtain ⟨x, hx, hbegin⟩ := Option.bind_eq_some_iff.mp hstep
    exact h.begin (held_refresh hx) hbegin
  | next i => exact step_next h hmeets hstep
  | crash i =>
    obtain ⟨call, -, rfl⟩ := Option.map_eq_some_iff.mp hstep
    exact h.finish h.sound (Keeps.refl _)
  | tick seconds => exact h.outside (a := .tick seconds) hstep
  | issueInstallTicket userId daemonInstanceId => exact h.outside (a := .issueInstallTicket userId daemonInstanceId) hstep
  | issueDeviceCode userCode => exact h.outside (a := .issueDeviceCode userCode) hstep
  | installHost userId => exact h.outside (a := .installHost userId) hstep
  | revokeInstance id => exact h.outside (a := .revokeInstance id) hstep

theorem inv_empty : Inv {} := by
  refine ⟨⟨?_, ?_, ?_, ?_, ?_, ?_, ?_, ?_, ?_, ⟨List.nodup_nil, ?_, ?_, ?_⟩⟩, fun _ _ h => (by cases h)⟩
  all_goals
    intro x hx
    cases hx

/-- In a run whose steps all meet the condition, every credential is redeemed once and by the right user. -/
theorem credentials_redeemed {actions : List Action} (hmeets : hub.Meets Hub.Orderly {} actions)
    (hrun : hub.run {} actions = some d) : d.store.Redeemed :=
  (hub.run_invariant_of_meets (fun _ _ _ h hmeets hstep => step_inv h hmeets hstep) inv_empty hmeets hrun).sound.redeemed

/-- A code is approved, polled, and its daemon refreshes once; an install token makes another daemon. -/
theorem approved_redeemed : ∃ d, hub.run {} [.issueDeviceCode "ABCD", .approveDeviceCode 1 "ABCD" "alice", .next 1,
      .pollDeviceToken 2 0, .next 2, .refreshDaemonToken 3 2, .next 3, .issueInstallTicket "alice" none,
      .redeemInstallToken 4 4 none, .next 4] = some d ∧ d.store.handed.length = 3 ∧ d.store.Redeemed := by
  have hrun : (hub.run {} [.issueDeviceCode "ABCD", .approveDeviceCode 1 "ABCD" "alice", .next 1,
      .pollDeviceToken 2 0, .next 2, .refreshDaemonToken 3 2, .next 3, .issueInstallTicket "alice" none,
      .redeemInstallToken 4 4 none, .next 4]).any (fun d => d.store.handed.length = 3) = true := by
    decide +kernel
  obtain ⟨d, hrun, hlength⟩ := (Option.any_eq_true _ _).mp hrun
  exact ⟨d, hrun, of_decide_eq_true hlength, credentials_redeemed (by decide +kernel) hrun⟩

/-- Two users approve one code at once, both are answered ok, and the holder receives the device of one. -/
theorem approved_twice : ¬ ∀ (actions : List Action) (d : Hub), hub.run {} actions = some d → d.store.Redeemed := by
  intro hredeemed
  have hrun : (hub.run {} [.issueDeviceCode "ABCD", .approveDeviceCode 1 "ABCD" "alice",
      .approveDeviceCode 2 "ABCD" "bob", .next 1, .next 2, .pollDeviceToken 3 0, .next 3]).any (fun d =>
        ∃ h ∈ d.store.handed, ∃ a ∈ d.store.approvals, h.credential = .device a.deviceCode ∧
          h.bundle.userId ≠ a.userId) = true := by
    decide +kernel
  obtain ⟨d, hrun, hwrong⟩ := (Option.any_eq_true _ _).mp hrun
  obtain ⟨h, hh, a, ha, hcredential, hne⟩ := of_decide_eq_true hwrong
  exact hne ((hredeemed _ d hrun).approved h hh a ha hcredential).2

end BotCord.Devices
