import BotCord.Spaces.Changes

/-!
# The tables stay consistent

What every change keeps of the rows that are there: ownership is never taken back, a membership either stays as it is or gets a greater version, and a revocation is final. From this and from what a change has checked, consistent tables stay consistent.
-/

namespace BotCord.Spaces

open Tables

variable {now : Instant} {t t' : Tables}

structure Grows (t t' : Tables) : Prop where
  users : ∀ u ∈ t.users, ∃ u' ∈ t'.users, u'.id = u.id ∧ u'.humanId = u.humanId
  agents : ∀ a ∈ t.agents, ∃ a' ∈ t'.agents, a'.agentId = a.agentId
  ownerships : ∀ o ∈ t.ownerships, o ∈ t'.ownerships
  spaces : ∀ s ∈ t.spaces, ∃ s' ∈ t'.spaces, s'.id = s.id ∧ s'.kind = s.kind
  organizations : ∀ o ∈ t.organizations, o ∈ t'.organizations
  userMemberships : ∀ m ∈ t.userMemberships, ∃ m' ∈ t'.userMemberships, m'.id = m.id ∧ m'.spaceId = m.spaceId ∧
    m'.userId = m.userId ∧ (m' = m ∨ m.version < m'.version)
  agentMemberships : ∀ m ∈ t.agentMemberships, ∃ m' ∈ t'.agentMemberships, m'.id = m.id ∧ m'.spaceId = m.spaceId ∧
    m'.agentId = m.agentId ∧ (m' = m ∨ m.version < m'.version)
  grants : ∀ g ∈ t.grants, ∃ g' ∈ t'.grants, g' = { g with revokedAt := g'.revokedAt } ∧
    (g.revokedAt ≠ none → g'.revokedAt ≠ none)

theorem Grows.refl (t : Tables) : Grows t t where
  users u hu := ⟨u, hu, rfl, rfl⟩
  agents a ha := ⟨a, ha, rfl⟩
  ownerships _ ho := ho
  spaces s hs := ⟨s, hs, rfl, rfl⟩
  organizations _ ho := ho
  userMemberships m hm := ⟨m, hm, rfl, rfl, rfl, .inl rfl⟩
  agentMemberships m hm := ⟨m, hm, rfl, rfl, rfl, .inl rfl⟩
  grants g hg := ⟨g, hg, rfl, id⟩

theorem Grows.trans {u : Tables} (h : Grows t t') (h' : Grows t' u) : Grows t u where
  users x hx := by
    obtain ⟨y, hy, hid, hhuman⟩ := h.users x hx
    obtain ⟨z, hz, hid', hhuman'⟩ := h'.users y hy
    exact ⟨z, hz, hid'.trans hid, hhuman'.trans hhuman⟩
  agents x hx := by
    obtain ⟨y, hy, hid⟩ := h.agents x hx
    obtain ⟨z, hz, hid'⟩ := h'.agents y hy
    exact ⟨z, hz, hid'.trans hid⟩
  ownerships x hx := h'.ownerships x (h.ownerships x hx)
  spaces x hx := by
    obtain ⟨y, hy, hid, hkind⟩ := h.spaces x hx
    obtain ⟨z, hz, hid', hkind'⟩ := h'.spaces y hy
    exact ⟨z, hz, hid'.trans hid, hkind'.trans hkind⟩
  organizations x hx := h'.organizations x (h.organizations x hx)
  userMemberships x hx := by
    obtain ⟨y, hy, hid, hspace, huser, hversion⟩ := h.userMemberships x hx
    obtain ⟨z, hz, hid', hspace', huser', hversion'⟩ := h'.userMemberships y hy
    refine ⟨z, hz, hid'.trans hid, hspace'.trans hspace, huser'.trans huser, ?_⟩
    rcases hversion with rfl | hlt
    · exact hversion'
    · rcases hversion' with rfl | hlt'
      · exact .inr hlt
      · exact .inr (hlt.trans hlt')
  agentMemberships x hx := by
    obtain ⟨y, hy, hid, hspace, hagent, hversion⟩ := h.agentMemberships x hx
    obtain ⟨z, hz, hid', hspace', hagent', hversion'⟩ := h'.agentMemberships y hy
    refine ⟨z, hz, hid'.trans hid, hspace'.trans hspace, hagent'.trans hagent, ?_⟩
    rcases hversion with rfl | hlt
    · exact hversion'
    · rcases hversion' with rfl | hlt'
      · exact .inr hlt
      · exact .inr (hlt.trans hlt')
  grants x hx := by
    obtain ⟨y, hy, hsame, hrevoked⟩ := h.grants x hx
    obtain ⟨z, hz, hsame', hrevoked'⟩ := h'.grants y hy
    refine ⟨z, hz, ?_, fun hx => hrevoked' (hrevoked hx)⟩
    rw [hsame', hsame]

namespace Grows

theorem moveAgents {p : AgentMembership → Prop} [DecidablePred p] {status : MembershipStatus} :
    Grows t (t.moveAgents p status) :=
  { Grows.refl t with
    agentMemberships := fun m hm => by
      refine ⟨_, Table.mem_update.mpr ⟨_, hm, rfl⟩, ?_⟩
      split
      · exact ⟨rfl, rfl, rfl, .inr (Nat.lt_succ_self _)⟩
      · exact ⟨rfl, rfl, rfl, .inl rfl⟩ }

theorem moveUser {id : MembershipId} {status : MembershipStatus} : Grows t (t.moveUser id status) :=
  { Grows.refl t with
    userMemberships := fun m hm => by
      refine ⟨_, Table.mem_update.mpr ⟨_, hm, rfl⟩, ?_⟩
      split
      · exact ⟨rfl, rfl, rfl, .inr (Nat.lt_succ_self _)⟩
      · exact ⟨rfl, rfl, rfl, .inl rfl⟩ }

theorem askAgain {id : MembershipId} {s : UserMembership} : Grows t (t.askAgain id s) :=
  { Grows.refl t with
    agentMemberships := fun m hm => by
      refine ⟨_, Table.mem_update.mpr ⟨_, hm, rfl⟩, ?_⟩
      split
      · exact ⟨rfl, rfl, rfl, .inr (Nat.lt_succ_self _)⟩
      · exact ⟨rfl, rfl, rfl, .inl rfl⟩ }

theorem revokeGrants {p : AgentAccessGrant → Prop} [DecidablePred p] : Grows t (t.revokeGrants p now) :=
  { Grows.refl t with
    grants := fun g hg => by
      refine ⟨_, Table.mem_update.mpr ⟨_, hg, rfl⟩, ?_⟩
      split
      · exact ⟨rfl, fun _ => Option.some_ne_none _⟩
      · exact ⟨rfl, id⟩ }

theorem modifyAgents {p : Agent → Prop} [DecidablePred p] {f : Agent → Agent} {hf : ∀ a, (f a).agentId = a.agentId} :
    Grows t { t with agents := t.agents.modify p f hf } :=
  { Grows.refl t with
    agents := fun a ha => by
      refine ⟨_, Table.mem_update.mpr ⟨_, ha, rfl⟩, ?_⟩
      split
      · exact hf a
      · rfl }

end Grows

theorem Change.grows (h : Change now t t') : Grows t t' := by
  cases h with
  | signUp hadds => exact { Grows.refl t with users := fun u hu => ⟨u, hadds.mem_iff.mpr (.inl hu), rfl, rfl⟩ }
  | users hhuman =>
    rename_i p _ f hf
    refine { Grows.refl t with users := fun u hu => ⟨_, Table.mem_update.mpr ⟨_, hu, rfl⟩, ?_⟩ }
    split
    · exact ⟨hf u, hhuman u⟩
    · exact ⟨rfl, rfl⟩
  | agent hadds => exact { Grows.refl t with agents := fun a ha => ⟨a, hadds.mem_iff.mpr (.inl ha), rfl⟩ }
  | bind | agentStatus => exact .modifyAgents
  | own _ _ _ hadds => exact { Grows.refl t with ownerships := fun o ho => hadds.mem_iff.mpr (.inl ho) }
  | personalSpace hadds => exact { Grows.refl t with spaces := fun s hs => ⟨s, hadds.mem_iff.mpr (.inl hs), rfl, rfl⟩ }
  | organization hspaces hadds =>
    exact
      { Grows.refl t with
        spaces := fun s hs => ⟨s, hspaces.mem_iff.mpr (.inl hs), rfl, rfl⟩
        organizations := fun o ho => hadds.mem_iff.mpr (.inl ho) }
  | spaceStatus =>
    refine { Grows.refl t with spaces := fun s hs => ⟨_, Table.mem_update.mpr ⟨_, hs, rfl⟩, ?_⟩ }
    split
    · exact ⟨rfl, rfl⟩
    · exact ⟨rfl, rfl⟩
  | roles | links => exact { Grows.refl t with }
  | joinUser hadds =>
    exact
      { Grows.refl t with
        userMemberships := fun m hm => ⟨m, hadds.mem_iff.mpr (.inl hm), rfl, rfl, rfl, .inl rfl⟩ }
  | moveUser => exact .moveUser
  | dropUser => exact Grows.moveUser.trans .moveAgents
  | joinAgent hadds =>
    exact
      { Grows.refl t with
        agentMemberships := fun m hm => ⟨m, hadds.mem_iff.mpr (.inl hm), rfl, rfl, rfl, .inl rfl⟩ }
  | askAgain => exact .askAgain
  | approve | removeAgent => exact .moveAgents
  | @grant g _ _ grants _ _ _ _ _ _ _ _ hadds =>
    have hrevoked : Grows t (t.revokeGrants (Replaces g) now) := .revokeGrants
    have hadded : Grows (t.revokeGrants (Replaces g) now) { t.revokeGrants (Replaces g) now with grants } :=
      { Grows.refl _ with grants := fun g hg => ⟨g, hadds.mem_iff.mpr (.inl hg), rfl, id⟩ }
    exact hrevoked.trans hadded
  | revoke => exact .revokeGrants

theorem Changes.grows (h : Changes now t t') : Grows t t' := by
  induction h with
  | refl => exact .refl t
  | tail _ hstep ih => exact ih.trans hstep.grows

variable {g : AgentAccessGrant}

theorem Granted.grows (h : Granted t g) (hgrows : Grows t t') : Granted t' g where
  agent := by
    obtain ⟨m, hm, hid, hspace, hagent, hle, hactive⟩ := h.agent
    obtain ⟨m', hm', hid', hspace', hagent', hversion⟩ := hgrows.agentMemberships m hm
    refine ⟨m', hm', hid'.trans hid, hspace'.trans hspace, hagent'.trans hagent, ?_⟩
    rcases hversion with rfl | hlt
    · exact ⟨hle, hactive⟩
    · exact ⟨hle.trans hlt.le, fun hsame => absurd hsame (by omega)⟩
  grantee := by
    obtain ⟨m, hm, hid, hspace, huser, hle, hactive⟩ := h.grantee
    obtain ⟨m', hm', hid', hspace', huser', hversion⟩ := hgrows.userMemberships m hm
    refine ⟨m', hm', hid'.trans hid, hspace'.trans hspace, huser'.trans huser, ?_⟩
    rcases hversion with rfl | hlt
    · exact ⟨hle, hactive⟩
    · exact ⟨hle.trans hlt.le, fun hsame => absurd hsame (by omega)⟩
  owner := by
    obtain ⟨o, ho, hagent, howner⟩ := h.owner
    exact ⟨o, hgrows.ownerships o ho, hagent, howner⟩
  space := by
    obtain ⟨s, hs, hid, hkind⟩ := h.space
    obtain ⟨s', hs', hid', hkind'⟩ := hgrows.spaces s hs
    exact ⟨s', hs', hid'.trans hid, hkind'.trans hkind⟩

variable {m : AgentMembership}

/-- A membership stays sponsored while the membership of its sponsor stays as it is, or once it has been removed. -/
theorem Sponsored.grows (h : Sponsored t m) (hgrows : Grows t t')
    (hkept : ∀ s ∈ t.userMemberships, s.id = m.sponsorUserMembershipId → m.status ≠ .removed → s ∈ t'.userMemberships) :
    Sponsored t' m where
  version := h.version
  sponsor := by
    obtain ⟨s, hs, hid, hspace, hactive, o, ho, hagent, howner⟩ := h.sponsor
    obtain ⟨s', hs', hid', hspace', huser', -⟩ := hgrows.userMemberships s hs
    refine ⟨s', hs', hid'.trans hid, hspace'.trans hspace, fun hstatus => ?_, o, hgrows.ownerships o ho, hagent,
      huser'.symm ▸ howner⟩
    obtain rfl := Keyed.eq_of_key hs' (hkept s hs hid hstatus) hid'
    exact hactive hstatus

theorem Sponsored.removed (h : Sponsored t m) (hgrows : Grows t t') :
    Sponsored t' { m with status := .removed, version := m.version + 1 } :=
  Sponsored.grows (m := { m with status := .removed, version := m.version + 1 })
    ⟨Nat.succ_pos _, by
      obtain ⟨s, hs, hid, hspace, -, howner⟩ := h.sponsor
      exact ⟨s, hs, hid, hspace, fun hstatus => absurd rfl hstatus, howner⟩⟩ hgrows
    fun _ _ _ hstatus => absurd rfl hstatus

theorem Granted.withRevokedAt (h : Granted t g) (revokedAt : Option Instant) :
    Granted t { g with revokedAt } := ⟨h.agent, h.grantee, h.owner, h.space⟩

namespace Consistent

theorem user_pair_of_back (h : Consistent t) (t' : Tables) (hback : ∀ m ∈ t'.userMemberships, ∃ r ∈ t.userMemberships,
    r.id = m.id ∧ r.spaceId = m.spaceId ∧ r.userId = m.userId) : ∀ m ∈ t'.userMemberships, ∀ m' ∈ t'.userMemberships,
      m.spaceId = m'.spaceId → m.userId = m'.userId → m = m' := by
  intro m hm m' hm' hspace huser
  obtain ⟨r, hr, hid, hrspace, hruser⟩ := hback m hm
  obtain ⟨r', hr', hid', hrspace', hruser'⟩ := hback m' hm'
  have hsame := h.user_pair r hr r' hr' (hrspace.trans (hspace.trans hrspace'.symm)) (hruser.trans (huser.trans hruser'.symm))
  refine Keyed.eq_of_key hm hm' ?_
  rw [← hid, ← hid', hsame]

theorem agent_pair_of_back (h : Consistent t) (t' : Tables) (hback : ∀ m ∈ t'.agentMemberships, ∃ r ∈ t.agentMemberships,
    r.id = m.id ∧ r.spaceId = m.spaceId ∧ r.agentId = m.agentId) : ∀ m ∈ t'.agentMemberships,
      ∀ m' ∈ t'.agentMemberships, m.spaceId = m'.spaceId → m.agentId = m'.agentId → m = m' := by
  intro m hm m' hm' hspace hagent
  obtain ⟨r, hr, hid, hrspace, hragent⟩ := hback m hm
  obtain ⟨r', hr', hid', hrspace', hragent'⟩ := hback m' hm'
  have hsame :=
    h.agent_pair r hr r' hr' (hrspace.trans (hspace.trans hrspace'.symm)) (hragent.trans (hagent.trans hragent'.symm))
  refine Keyed.eq_of_key hm hm' ?_
  rw [← hid, ← hid', hsame]

theorem sponsor_active (h : Consistent t) {m : AgentMembership} (hm : m ∈ t.agentMemberships) {s : UserMembership}
    (hs : s ∈ t.userMemberships) (hid : s.id = m.sponsorUserMembershipId) (hstatus : m.status ≠ .removed) :
    s.status = .active := by
  obtain ⟨s', hs', hid', -, hactive, -⟩ := (h.agentMembership m hm).sponsor
  obtain rfl := Keyed.eq_of_key hs hs' (hid.trans hid'.symm)
  exact (hactive hstatus).1

theorem agentMembership_of_kept (h : Consistent t) (hgrows : Grows t t')
    (hkept : ∀ s ∈ t.userMemberships, s ∈ t'.userMemberships) :
    ∀ m ∈ t.agentMemberships, Sponsored t' m :=
  fun m hm => (h.agentMembership m hm).grows hgrows fun s hs _ _ => hkept s hs

theorem grant_of_grows (h : Consistent t) (hgrows : Grows t t') : ∀ g ∈ t.grants, Granted t' g :=
  fun g hg => (h.grant g hg).grows hgrows

theorem userMembership_of_grows (h : Consistent t) (hgrows : Grows t t') :
    ∀ m ∈ t.userMemberships, 0 < m.version ∧ ∃ u ∈ t'.users, u.id = m.userId := by
  intro m hm
  obtain ⟨hversion, u, hu, hid⟩ := h.userMembership m hm
  obtain ⟨u', hu', hid', -⟩ := hgrows.users u hu
  exact ⟨hversion, u', hu', hid'.trans hid⟩

theorem ownership_of_grows (h : Consistent t) (hgrows : Grows t t') :
    ∀ o ∈ t.ownerships, (∃ a ∈ t'.agents, a.agentId = o.agentId) ∧ ∃ u ∈ t'.users, o.owner = .user u.id := by
  intro o ho
  obtain ⟨⟨a, ha, hagent⟩, u, hu, howner⟩ := h.ownership o ho
  obtain ⟨a', ha', hagent'⟩ := hgrows.agents a ha
  obtain ⟨u', hu', hid', -⟩ := hgrows.users u hu
  exact ⟨⟨a', ha', hagent'.trans hagent⟩, u', hu', hid'.symm ▸ howner⟩

theorem claimed_of_grows (h : Consistent t) (hgrows : Grows t t') : ∀ a ∈ t.agents, Claimed t' a := by
  intro a ha userId hbound
  obtain ⟨hclaimed, u, hu, hid⟩ := h.claimed a ha userId hbound
  obtain ⟨u', hu', hid', -⟩ := hgrows.users u hu
  exact ⟨hclaimed, u', hu', hid'.trans hid⟩

theorem organization_of_grows (h : Consistent t) (hgrows : Grows t t') :
    ∀ o ∈ t.organizations, StartsWith 'o' o.principalId ∧ ∃ s ∈ t'.spaces, s.id = o.spaceId := by
  intro o ho
  obtain ⟨hprincipal, s, hs, hid⟩ := h.organization o ho
  obtain ⟨s', hs', hid', -⟩ := hgrows.spaces s hs
  exact ⟨hprincipal, s', hs', hid'.trans hid⟩

end Consistent

theorem consistent_users (h : Consistent t) {users : Keyed User.id} (hgrows : Grows t { t with users })
    (hhuman : ∀ u ∈ users, StartsWith 'h' u.humanId)
    (hunique : ∀ u ∈ users, ∀ v ∈ users, u.humanId = v.humanId → u = v) : Consistent { t with users } :=
  { h with
    human := hhuman
    human_unique := hunique
    claimed := h.claimed_of_grows hgrows
    userMembership := h.userMembership_of_grows hgrows
    ownership := h.ownership_of_grows hgrows
    agentMembership := h.agentMembership_of_kept hgrows fun _ hs => hs
    grant := h.grant_of_grows hgrows }

theorem consistent_agents (h : Consistent t) {agents : Keyed Agent.agentId} (hgrows : Grows t { t with agents })
    (hagent : ∀ a ∈ agents, StartsWith 'a' a.agentId) (hclaimed : ∀ a ∈ agents, Claimed t a) :
    Consistent { t with agents } :=
  { h with
    agent := hagent
    claimed := hclaimed
    ownership := h.ownership_of_grows hgrows
    agentMembership := h.agentMembership_of_kept hgrows fun _ hs => hs
    grant := h.grant_of_grows hgrows }

/-- A rewriting of agents keeps their ids; what it makes of an agent has to be claimed if it is bound. -/
theorem consistent_modifyAgents (h : Consistent t) {p : Agent → Prop} [DecidablePred p] {f : Agent → Agent}
    {hf : ∀ a, (f a).agentId = a.agentId} (hclaimed : ∀ a ∈ t.agents, Claimed t (f a)) :
    Consistent { t with agents := t.agents.modify p f hf } := by
  refine consistent_agents h .modifyAgents (fun a ha => ?_) fun a ha => ?_
  · rcases Table.update_cases ha with ⟨ha, -⟩ | ⟨r, hr, -, rfl⟩
    · exact h.agent a ha
    · rw [hf]
      exact h.agent r hr
  · rcases Table.update_cases ha with ⟨ha, -⟩ | ⟨r, hr, -, rfl⟩
    · exact h.claimed a ha
    · exact hclaimed r hr

theorem consistent_unbind (h : Consistent t) {agentId : AgentId} {claimCode : String} :
    Consistent (t.unbind agentId claimCode) := by
  refine consistent_modifyAgents h fun _ _ userId hbound => ?_
  cases hbound

/-- A change of the memberships of users, where the sponsors in use stay as they are. -/
theorem consistent_userMemberships (h : Consistent t) {userMemberships : Keyed UserMembership.id}
    (hgrows : Grows t { t with userMemberships })
    (hpair : ∀ m ∈ userMemberships, ∀ m' ∈ userMemberships, m.spaceId = m'.spaceId → m.userId = m'.userId → m = m')
    (hrow : ∀ m ∈ userMemberships, 0 < m.version ∧ ∃ u ∈ t.users, u.id = m.userId)
    (hkept : ∀ m ∈ t.agentMemberships, ∀ s ∈ t.userMemberships, s.id = m.sponsorUserMembershipId → m.status ≠ .removed →
      s ∈ userMemberships) : Consistent { t with userMemberships } :=
  { h with
    user_pair := hpair
    userMembership := hrow
    agentMembership := fun m hm => (h.agentMembership m hm).grows hgrows (hkept m hm)
    grant := h.grant_of_grows hgrows }

theorem consistent_agentMemberships (h : Consistent t) {agentMemberships : Keyed AgentMembership.id}
    (hgrows : Grows t { t with agentMemberships })
    (hpair : ∀ m ∈ agentMemberships, ∀ m' ∈ agentMemberships, m.spaceId = m'.spaceId → m.agentId = m'.agentId → m = m')
    (hrow : ∀ m ∈ agentMemberships, Sponsored { t with agentMemberships } m) : Consistent { t with agentMemberships } :=
  { h with
    agent_pair := hpair
    agentMembership := hrow
    grant := h.grant_of_grows hgrows }

variable {status : MembershipStatus}

theorem mem_moveUser {id : MembershipId} {m : UserMembership}
    (hm : m ∈ (t.moveUser id status).userMemberships) :
    (m ∈ t.userMemberships ∧ m.id ≠ id) ∨
      ∃ r ∈ t.userMemberships, r.id = id ∧ m = { r with status, version := r.version + 1 } :=
  Table.update_cases hm

theorem consistent_moveUser (h : Consistent t) {m : UserMembership} (hm : m ∈ t.userMemberships)
    (hstatus : m.status ≠ .active) (status : MembershipStatus) : Consistent (t.moveUser m.id status) := by
  refine consistent_userMemberships h .moveUser ?_ ?_ ?_
  · refine h.user_pair_of_back (t.moveUser m.id status) fun x hx => ?_
    rcases mem_moveUser hx with ⟨hx, -⟩ | ⟨r, hr, -, rfl⟩
    · exact ⟨x, hx, rfl, rfl, rfl⟩
    · exact ⟨r, hr, rfl, rfl, rfl⟩
  · intro x hx
    rcases mem_moveUser hx with ⟨hx, -⟩ | ⟨r, hr, -, rfl⟩
    · exact h.userMembership x hx
    · exact ⟨Nat.succ_pos _, (h.userMembership r hr).2⟩
  · -- the membership that moves sponsors nobody
    intro x hx s hs hid hnot
    refine Table.mem_update_of_not hs fun hsame => hstatus ?_
    obtain rfl := Keyed.eq_of_key hs hm hsame
    exact h.sponsor_active hx hs hid hnot

variable {p : AgentMembership → Prop}

theorem mem_moveAgents [DecidablePred p]
    (hm : m ∈ (t.moveAgents p status).agentMemberships) :
    (m ∈ t.agentMemberships ∧ ¬ p m) ∨
      ∃ r ∈ t.agentMemberships, p r ∧ m = { r with status, version := r.version + 1 } :=
  Table.update_cases hm

theorem agent_pair_moveAgents (h : Consistent t) [DecidablePred p]
    : ∀ m ∈ (t.moveAgents p status).agentMemberships,
      ∀ m' ∈ (t.moveAgents p status).agentMemberships, m.spaceId = m'.spaceId → m.agentId = m'.agentId → m = m' := by
  refine h.agent_pair_of_back _ fun x hx => ?_
  rcases mem_moveAgents hx with ⟨hx, -⟩ | ⟨r, hr, -, rfl⟩
  · exact ⟨x, hx, rfl, rfl, rfl⟩
  · exact ⟨r, hr, rfl, rfl, rfl⟩

theorem consistent_removeAgents (h : Consistent t) [DecidablePred p] :
    Consistent (t.moveAgents p .removed) := by
  refine consistent_agentMemberships h .moveAgents (agent_pair_moveAgents h) fun x hx => ?_
  rcases mem_moveAgents hx with ⟨hx, -⟩ | ⟨r, hr, -, rfl⟩
  · exact (h.agentMembership x hx).grows .moveAgents fun _ hs _ _ => hs
  · exact (h.agentMembership r hr).removed .moveAgents

/-- A member leaves with the agents it sponsored; what stays is sponsored by others. -/
theorem consistent_dropUser (h : Consistent t) (id : MembershipId) :
    Consistent ((t.moveUser id .removed).moveAgents (SponsoredBy id) .removed) := by
  have hgrows : Grows t ((t.moveUser id .removed).moveAgents (SponsoredBy id) .removed) := Grows.moveUser.trans .moveAgents
  refine
    { h with
      user_pair := h.user_pair_of_back _ fun x hx => ?_
      agent_pair := h.agent_pair_of_back _ fun x hx => ?_
      userMembership := fun x hx => ?_
      agentMembership := fun x hx => ?_
      grant := h.grant_of_grows hgrows }
  · rcases mem_moveUser hx with ⟨hx, -⟩ | ⟨r, hr, -, rfl⟩
    · exact ⟨x, hx, rfl, rfl, rfl⟩
    · exact ⟨r, hr, rfl, rfl, rfl⟩
  · rcases mem_moveAgents hx with ⟨hx, -⟩ | ⟨r, hr, -, rfl⟩
    · exact ⟨x, hx, rfl, rfl, rfl⟩
    · exact ⟨r, hr, rfl, rfl, rfl⟩
  · rcases mem_moveUser hx with ⟨hx, -⟩ | ⟨r, hr, -, rfl⟩
    · exact h.userMembership x hx
    · exact ⟨Nat.succ_pos _, (h.userMembership r hr).2⟩
  · rcases mem_moveAgents hx with ⟨hx, hnot⟩ | ⟨r, hr, -, rfl⟩
    · refine (h.agentMembership x hx).grows hgrows fun s hs hid hstatus => ?_
      exact Table.mem_update_of_not hs fun hsame => hnot ⟨hid.symm.trans hsame, hstatus⟩
    · exact (h.agentMembership r hr).removed hgrows

theorem consistent_joinAgent (h : Consistent t) {agentMemberships : Keyed AgentMembership.id}
    (hadds : t.agentMemberships.Adds m agentMemberships)
    (hpair : ∀ x ∈ t.agentMemberships, ¬ (x.spaceId = m.spaceId ∧ x.agentId = m.agentId)) (hsponsored : Sponsored t m)
    (hgrows : Grows t { t with agentMemberships }) : Consistent { t with agentMemberships } := by
  refine consistent_agentMemberships h hgrows ?_ fun x hx => ?_
  · intro x hx y hy hspace hagent
    rcases hadds.mem_iff.mp hx with hx | rfl
    · rcases hadds.mem_iff.mp hy with hy | rfl
      · exact h.agent_pair x hx y hy hspace hagent
      · exact absurd ⟨hspace, hagent⟩ (hpair x hx)
    · rcases hadds.mem_iff.mp hy with hy | rfl
      · exact absurd ⟨hspace.symm, hagent.symm⟩ (hpair y hy)
      · rfl
  · rcases hadds.mem_iff.mp hx with hx | rfl
    · exact (h.agentMembership x hx).grows hgrows fun _ hs _ _ => hs
    · exact hsponsored.grows hgrows fun _ hs _ _ => hs

theorem consistent_joinUser (h : Consistent t) {m : UserMembership} {userMemberships : Keyed UserMembership.id}
    (hadds : t.userMemberships.Adds m userMemberships)
    (hpair : ∀ x ∈ t.userMemberships, ¬ (x.spaceId = m.spaceId ∧ x.userId = m.userId))
    (hrow : 0 < m.version ∧ ∃ u ∈ t.users, u.id = m.userId) (hgrows : Grows t { t with userMemberships }) :
    Consistent { t with userMemberships } := by
  refine consistent_userMemberships h hgrows ?_ (fun x hx => ?_) fun _ _ s hs _ _ => hadds.mem_iff.mpr (.inl hs)
  · intro x hx y hy hspace huser
    rcases hadds.mem_iff.mp hx with hx | rfl
    · rcases hadds.mem_iff.mp hy with hy | rfl
      · exact h.user_pair x hx y hy hspace huser
      · exact absurd ⟨hspace, huser⟩ (hpair x hx)
    · rcases hadds.mem_iff.mp hy with hy | rfl
      · exact absurd ⟨hspace.symm, huser.symm⟩ (hpair y hy)
      · rfl
  · rcases hadds.mem_iff.mp hx with hx | rfl
    · exact h.userMembership x hx
    · exact hrow

theorem consistent_askAgain (h : Consistent t) {s : UserMembership} (hm : m ∈ t.agentMemberships)
    (hs : s ∈ t.userMemberships) (hspace : s.spaceId = m.spaceId) (hactive : s.status = .active)
    (howner : ∃ o ∈ t.ownerships, o.agentId = m.agentId ∧ o.owner = .user s.userId) : Consistent (t.askAgain m.id s) := by
  have hback : ∀ x ∈ (t.askAgain m.id s).agentMemberships, (x ∈ t.agentMemberships ∧ x.id ≠ m.id) ∨
      ∃ r ∈ t.agentMemberships, r.id = m.id ∧ x =
        { r with
          status := .invited, version := r.version + 1, sponsorUserMembershipId := s.id, sponsorVersion := s.version } :=
    fun _ hx => Table.update_cases hx
  refine consistent_agentMemberships h .askAgain (h.agent_pair_of_back (t.askAgain m.id s) fun x hx => ?_) fun x hx => ?_
  · rcases hback x hx with ⟨hx, -⟩ | ⟨r, hr, -, rfl⟩
    · exact ⟨x, hx, rfl, rfl, rfl⟩
    · exact ⟨r, hr, rfl, rfl, rfl⟩
  · rcases hback x hx with ⟨hx, -⟩ | ⟨r, hr, hid, rfl⟩
    · exact (h.agentMembership x hx).grows .askAgain fun _ hs _ _ => hs
    · obtain rfl := Keyed.eq_of_key hr hm hid
      exact ⟨Nat.succ_pos _, s, hs, rfl, hspace, fun _ => ⟨hactive, rfl⟩, howner⟩

theorem consistent_approve (h : Consistent t) (hm : m ∈ t.agentMemberships)
    (hstatus : m.status = .invited) : Consistent (t.moveAgents (·.id = m.id) .active) := by
  refine consistent_agentMemberships h .moveAgents (agent_pair_moveAgents h) fun x hx => ?_
  rcases mem_moveAgents hx with ⟨hx, -⟩ | ⟨r, hr, hid, rfl⟩
  · exact (h.agentMembership x hx).grows .moveAgents fun _ hs _ _ => hs
  · obtain rfl := Keyed.eq_of_key hr hm hid
    obtain ⟨-, s, hs, hsid, hspace, hactive, howner⟩ := h.agentMembership r hr
    exact ⟨Nat.succ_pos _, s, hs, hsid, hspace, fun _ => hactive (by simp [hstatus]), howner⟩

theorem mem_revokeGrants {p : AgentAccessGrant → Prop} [DecidablePred p]
    (hg : g ∈ (t.revokeGrants p now).grants) :
    (g ∈ t.grants ∧ ¬ p g) ∨ ∃ r ∈ t.grants, p r ∧ g = { r with revokedAt := some now } := Table.update_cases hg

theorem consistent_revokeGrants (h : Consistent t) {p : AgentAccessGrant → Prop} [DecidablePred p] :
    Consistent (t.revokeGrants p now) := by
  refine
    { h with
      agentMembership := h.agentMembership_of_kept .revokeGrants fun _ hs => hs
      grant := fun g hg => ?_
      one_live := fun g hg g' hg' hpair hlive hlive' => ?_ }
  · rcases mem_revokeGrants hg with ⟨hg, -⟩ | ⟨r, hr, -, rfl⟩
    · exact (h.grant g hg).grows .revokeGrants
    · exact ((h.grant r hr).grows .revokeGrants).withRevokedAt _
  · rcases mem_revokeGrants hg with ⟨hg, -⟩ | ⟨r, -, -, rfl⟩
    · rcases mem_revokeGrants hg' with ⟨hg', -⟩ | ⟨r', -, -, rfl⟩
      · exact h.one_live g hg g' hg' hpair hlive hlive'
      · cases hlive'
    · cases hlive

theorem consistent_grant (h : Consistent t) {grants : Keyed AgentAccessGrant.id}
    (hgranted : Granted t g) (hadds : (t.revokeGrants (Replaces g) now).grants.Adds g grants) :
    Consistent { t.revokeGrants (Replaces g) now with grants } := by
  have hrevoked : Consistent (t.revokeGrants (Replaces g) now) := consistent_revokeGrants h
  have hgrows : Grows (t.revokeGrants (Replaces g) now) { t.revokeGrants (Replaces g) now with grants } :=
    { Grows.refl _ with grants := fun x hx => ⟨x, hadds.mem_iff.mpr (.inl hx), rfl, id⟩ }
  have hother : ∀ x ∈ (t.revokeGrants (Replaces g) now).grants, SamePair x g → x.revokedAt ≠ none := by
    intro x hx hpair hlive
    rcases mem_revokeGrants hx with ⟨-, hnot⟩ | ⟨r, -, -, rfl⟩
    · exact hnot ⟨hpair.1, hpair.2.1, hpair.2.2, hlive⟩
    · cases hlive
  refine
    { hrevoked with
      agentMembership := hrevoked.agentMembership_of_kept hgrows fun _ hs => hs
      grant := fun x hx => ?_
      one_live := fun x hx y hy hpair hlive hlive' => ?_ }
  · rcases hadds.mem_iff.mp hx with hx | rfl
    · exact (hrevoked.grant x hx).grows hgrows
    · exact (hgranted.grows .revokeGrants).grows hgrows
  · rcases hadds.mem_iff.mp hx with hx | rfl
    · rcases hadds.mem_iff.mp hy with hy | rfl
      · exact hrevoked.one_live x hx y hy hpair hlive hlive'
      · exact absurd hlive (hother x hx hpair)
    · rcases hadds.mem_iff.mp hy with hy | rfl
      · exact absurd hlive' (hother y hy ⟨hpair.1.symm, hpair.2.1.symm, hpair.2.2.symm⟩)
      · rfl

theorem Consistent.change (h : Consistent t) (hchange : Change now t t') : Consistent t' := by
  have hgrows := hchange.grows
  cases hchange with
  | signUp hadds hhuman hnew =>
    refine consistent_users h hgrows (fun x hx => ?_) fun x hx y hy hsame => ?_
    · rcases hadds.mem_iff.mp hx with hx | rfl
      · exact h.human x hx
      · exact hhuman
    · rcases hadds.mem_iff.mp hx with hx | rfl
      · rcases hadds.mem_iff.mp hy with hy | rfl
        · exact h.human_unique x hx y hy hsame
        · exact absurd hsame (hnew x hx)
      · rcases hadds.mem_iff.mp hy with hy | rfl
        · exact absurd hsame.symm (hnew y hy)
        · rfl
  | @users p _ f hf hhuman =>
    have hback : ∀ x ∈ t.users.modify p f hf, ∃ r ∈ t.users, r.id = x.id ∧ r.humanId = x.humanId := by
      intro x hx
      rcases Table.update_cases hx with ⟨hx, -⟩ | ⟨r, hr, -, rfl⟩
      · exact ⟨x, hx, rfl, rfl⟩
      · exact ⟨r, hr, (hf r).symm, (hhuman r).symm⟩
    refine consistent_users h hgrows (fun x hx => ?_) fun x hx y hy hsame => ?_
    · obtain ⟨r, hr, -, hsame⟩ := hback x hx
      exact hsame ▸ h.human r hr
    · obtain ⟨r, hr, hid, hrhuman⟩ := hback x hx
      obtain ⟨r', hr', hid', hrhuman'⟩ := hback y hy
      have hrow := h.human_unique r hr r' hr' (hrhuman.trans (hsame.trans hrhuman'.symm))
      exact Keyed.eq_of_key hx hy (hid.symm.trans ((congrArg User.id hrow).trans hid'))
  | agent hadds hagent hbound =>
    refine consistent_agents h hgrows (fun x hx => ?_) fun x hx => ?_
    · rcases hadds.mem_iff.mp hx with hx | rfl
      · exact h.agent x hx
      · exact hagent
    · rcases hadds.mem_iff.mp hx with hx | rfl
      · exact h.claimed x hx
      · exact hbound
  | bind _ _ hu =>
    refine consistent_modifyAgents h fun _ _ userId hbound => ?_
    obtain rfl := Option.some.inj hbound
    exact ⟨Option.some_ne_none now, _, hu, rfl⟩
  | agentStatus => exact consistent_modifyAgents h h.claimed
  | own ha hu hbound hadds =>
    exact
      { h with
        ownership := fun o ho => by
          rcases hadds.mem_iff.mp ho with ho | rfl
          · exact h.ownership o ho
          · exact ⟨⟨_, ha, rfl⟩, _, hu, rfl⟩
        agentMembership := h.agentMembership_of_kept hgrows fun _ hs => hs
        grant := h.grant_of_grows hgrows }
  | personalSpace hadds hkind =>
    exact
      { h with
        organization := h.organization_of_grows hgrows
        organization_of := fun s hs horg => by
          rcases hadds.mem_iff.mp hs with hs | rfl
          · exact h.organization_of s hs horg
          · rw [hkind] at horg
            cases horg
        agentMembership := h.agentMembership_of_kept hgrows fun _ hs => hs
        grant := h.grant_of_grows hgrows }
  | organization hspaces hadds hspace hprincipal hnew =>
    refine
      { h with
        organization := fun o ho => ?_
        organization_space := fun o ho o' ho' hsame => ?_
        organization_principal := fun o ho o' ho' hsame => ?_
        organization_of := fun s hs horg => ?_
        agentMembership := h.agentMembership_of_kept hgrows fun _ hs => hs
        grant := h.grant_of_grows hgrows }
    · rcases hadds.mem_iff.mp ho with ho | rfl
      · exact h.organization_of_grows hgrows o ho
      · exact ⟨hprincipal, _, hspaces.mem_iff.mpr (.inr rfl), hspace.symm⟩
    · rcases hadds.mem_iff.mp ho with ho | rfl
      · rcases hadds.mem_iff.mp ho' with ho' | rfl
        · exact h.organization_space o ho o' ho' hsame
        · exact absurd hsame (hnew o ho).1
      · rcases hadds.mem_iff.mp ho' with ho' | rfl
        · exact absurd hsame.symm (hnew o' ho').1
        · rfl
    · rcases hadds.mem_iff.mp ho with ho | rfl
      · rcases hadds.mem_iff.mp ho' with ho' | rfl
        · exact h.organization_principal o ho o' ho' hsame
        · exact absurd hsame (hnew o ho).2
      · rcases hadds.mem_iff.mp ho' with ho' | rfl
        · exact absurd hsame.symm (hnew o' ho').2
        · rfl
    · rcases hspaces.mem_iff.mp hs with hs | rfl
      · obtain ⟨o, ho, hid⟩ := h.organization_of s hs horg
        exact ⟨o, hadds.mem_iff.mpr (.inl ho), hid⟩
      · exact ⟨_, hadds.mem_iff.mpr (.inr rfl), hspace⟩
  | spaceStatus =>
    exact
      { h with
        organization := h.organization_of_grows hgrows
        organization_of := fun s hs horg => by
          rcases Table.update_cases hs with ⟨hs, -⟩ | ⟨r, hr, -, rfl⟩
          · exact h.organization_of s hs horg
          · exact h.organization_of r hr horg
        agentMembership := h.agentMembership_of_kept hgrows fun _ hs => hs
        grant := h.grant_of_grows hgrows }
  | roles | links =>
    exact
      { h with
        agentMembership := h.agentMembership_of_kept hgrows fun _ hs => hs
        grant := h.grant_of_grows hgrows }
  | joinUser hadds hpair hversion huser =>
    exact consistent_joinUser h hadds hpair ⟨by rw [hversion]; exact Nat.one_pos, huser⟩ hgrows
  | moveUser hm hstatus => exact consistent_moveUser h hm hstatus _
  | dropUser => exact consistent_dropUser h _
  | joinAgent hadds hpair hversion hs hid hspace hactive hsponsored howner =>
    refine consistent_joinAgent h hadds hpair ?_ hgrows
    exact ⟨by rw [hversion]; exact Nat.one_pos, _, hs, hid, hspace, fun _ => ⟨hactive, hsponsored⟩, howner⟩
  | askAgain hm _ hs hspace hactive howner => exact consistent_askAgain h hm hs hspace hactive howner
  | approve hm hstatus => exact consistent_approve h hm hstatus
  | removeAgent => exact consistent_removeAgents h
  | grant ham hactive hagent hum hactive' hgrantee howner hspace hadds =>
    refine consistent_grant h ⟨?_, ?_, howner, hspace⟩ hadds
    · exact ⟨_, ham, hagent.1.symm, hagent.2.1.symm, hagent.2.2.1.symm, hagent.2.2.2.le, fun _ => hactive⟩
    · exact ⟨_, hum, hgrantee.1.symm, hgrantee.2.1.symm, hgrantee.2.2.1.symm, hgrantee.2.2.2.le, fun _ => hactive'⟩
  | revoke => exact consistent_revokeGrants h

theorem Consistent.changes (h : Consistent t) (hchanges : Changes now t t') : Consistent t' := by
  induction hchanges with
  | refl => exact h
  | tail _ hstep ih => exact ih.change hstep

theorem consistent_empty : Consistent {} := by
  constructor <;> intro x hx <;> exact absurd hx Keyed.not_mem_empty

end BotCord.Spaces
