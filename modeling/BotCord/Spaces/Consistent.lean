import BotCord.Spaces.Projected

/-!
# Consistent tables

What the calls keep true of the tables. A membership of an agent that has not been removed has a sponsor whose membership is active and has not changed since; a grant names memberships, and while they still have the versions it names they are active; at most one grant of a space, an agent and a grantee is not revoked.
-/

namespace BotCord.Spaces

open Access (publicPrincipalId AccessPrincipal)

/-- What tells the ids of humans, agents and organizations apart. -/
def StartsWith (c : Char) (id : PrincipalId) : Prop := id.toList.head? = some c
deriving Decidable

theorem StartsWith.ne {c d : Char} {x y : PrincipalId} (hx : StartsWith c x) (hy : StartsWith d y) (hne : c ≠ d) :
    x ≠ y := by
  rintro rfl
  exact hne (Option.some.inj (hx.symm.trans hy))

theorem StartsWith.ne_empty {c : Char} {x : PrincipalId} (hx : StartsWith c x) : x ≠ "" := by
  rintro rfl
  exact absurd hx (by simp [StartsWith])

/-- The membership of an agent has a sponsor, which owns the agent; until it is removed, the sponsor's membership is active and at the recorded version. -/
structure Sponsored (t : Tables) (m : AgentMembership) : Prop where
  version : 0 < m.version
  sponsor : ∃ s ∈ t.userMemberships, s.id = m.sponsorUserMembershipId ∧ s.spaceId = m.spaceId ∧
    (m.status ≠ .removed → s.status = .active ∧ s.version = m.sponsorVersion) ∧
    ∃ o ∈ t.ownerships, o.agentId = m.agentId ∧ o.owner = .user s.userId

/-- A grant refers to what was there when it was created; a membership at the version it names is active. -/
structure Granted (t : Tables) (g : AgentAccessGrant) : Prop where
  agent : ∃ m ∈ t.agentMemberships, m.id = g.agentMembershipId ∧ m.spaceId = g.spaceId ∧ m.agentId = g.agentId ∧
    g.agentMembershipVersion ≤ m.version ∧ (m.version = g.agentMembershipVersion → m.status = .active)
  grantee : ∃ m ∈ t.userMemberships, m.id = g.granteeMembershipId ∧ m.spaceId = g.spaceId ∧
    m.userId = g.granteeUserId ∧ g.granteeMembershipVersion ≤ m.version ∧
    (m.version = g.granteeMembershipVersion → m.status = .active)
  owner : ∃ o ∈ t.ownerships, o.agentId = g.agentId ∧ o.owner = .user g.createdByUserId
  space : ∃ s ∈ t.spaces, s.id = g.spaceId ∧ s.kind = .organization

/-- An agent that is bound has been claimed, by a user that exists. -/
def Claimed (t : Tables) (a : Agent) : Prop :=
  ∀ userId, a.userId = some userId → a.claimedAt ≠ none ∧ ∃ u ∈ t.users, u.id = userId

def SamePair (g h : AgentAccessGrant) : Prop :=
  g.spaceId = h.spaceId ∧ g.agentId = h.agentId ∧ g.granteeUserId = h.granteeUserId

structure Consistent (t : Tables) : Prop where
  human : ∀ u ∈ t.users, StartsWith 'h' u.humanId
  human_unique : ∀ u ∈ t.users, ∀ v ∈ t.users, u.humanId = v.humanId → u = v
  agent : ∀ a ∈ t.agents, StartsWith 'a' a.agentId
  claimed : ∀ a ∈ t.agents, Claimed t a
  organization : ∀ o ∈ t.organizations, StartsWith 'o' o.principalId ∧ ∃ s ∈ t.spaces, s.id = o.spaceId
  organization_space : ∀ o ∈ t.organizations, ∀ o' ∈ t.organizations, o.spaceId = o'.spaceId → o = o'
  organization_principal : ∀ o ∈ t.organizations, ∀ o' ∈ t.organizations, o.principalId = o'.principalId → o = o'
  organization_of : ∀ s ∈ t.spaces, s.kind = .organization → ∃ o ∈ t.organizations, o.spaceId = s.id
  user_pair : ∀ m ∈ t.userMemberships, ∀ m' ∈ t.userMemberships, m.spaceId = m'.spaceId → m.userId = m'.userId → m = m'
  agent_pair : ∀ m ∈ t.agentMemberships, ∀ m' ∈ t.agentMemberships,
    m.spaceId = m'.spaceId → m.agentId = m'.agentId → m = m'
  userMembership : ∀ m ∈ t.userMemberships, 0 < m.version ∧ ∃ u ∈ t.users, u.id = m.userId
  agentMembership : ∀ m ∈ t.agentMemberships, Sponsored t m
  ownership : ∀ o ∈ t.ownerships, (∃ a ∈ t.agents, a.agentId = o.agentId) ∧ ∃ u ∈ t.users, o.owner = .user u.id
  grant : ∀ g ∈ t.grants, Granted t g
  one_live : ∀ g ∈ t.grants, ∀ h ∈ t.grants, SamePair g h → g.revokedAt = none → h.revokedAt = none → g = h

namespace Tables

variable {t : Tables} {now : Instant} {e : Edge} {a : Agent}

theorem humanOf_eq_some {userId : UserId} {human : PrincipalId} :
    t.humanOf userId = some human ↔ ∃ u ∈ t.users, u.id = userId ∧ u.humanId = human := by
  simp only [humanOf, Option.map_eq_some_iff, Keyed.get?_eq_some_iff, and_assoc]

theorem mem_orgOf {spaceId : SpaceId} {org : PrincipalId} (h : t.orgOf spaceId = some org) :
    ∃ o ∈ t.organizations, o.spaceId = spaceId ∧ o.principalId = org := by
  obtain ⟨o, ho, rfl⟩ := Option.map_eq_some_iff.mp h
  exact ⟨o, List.mem_of_find?_eq_some ho, by simpa using List.find?_some ho, rfl⟩

theorem orgOf_spaceId (h : Consistent t) {o : Organization} (ho : o ∈ t.organizations) :
    t.orgOf o.spaceId = some o.principalId := by
  cases hfind : t.organizations.rows.find? (·.spaceId = o.spaceId) with
  | none => exact absurd (List.find?_eq_none.mp hfind o ho) (by simp)
  | some o' =>
    have hsame := h.organization_space o' (List.mem_of_find?_eq_some hfind) o ho (by simpa using List.find?_some hfind)
    rw [orgOf, hfind, hsame, Option.map_some]

theorem mem_desiredEdges : e ∈ t.desiredEdges now ↔
    (∃ a ∈ t.agents, a.status = .active ∧ t.ownershipEdge a = some e) ∨
      (∃ m ∈ t.userMemberships, t.userMembershipEdge m = some e) ∨
      (∃ m ∈ t.agentMemberships, t.agentMembershipEdge m = some e) ∨
      ∃ g ∈ t.grants, t.grantEdge now g = some e := by
  simp only [desiredEdges, List.mem_append, List.mem_filterMap, List.mem_filter, decide_eq_true_eq, Keyed.mem_def,
    and_assoc, or_assoc]

/-- The user that owns an agent: the one of its row in the ownership table, or else the one it is bound to. -/
def OwnedBy (t : Tables) (a : Agent) (userId : UserId) : Prop :=
  (∃ o ∈ t.ownerships, o.agentId = a.agentId ∧ o.owner = .user userId) ∨
    (∀ o ∈ t.ownerships, o.agentId ≠ a.agentId) ∧ a.userId = some userId

theorem ownershipEdge_eq_some (h : Consistent t) :
    t.ownershipEdge a = some e ↔ ∃ u ∈ t.users, t.OwnedBy a u.id ∧ e = owns u.humanId .user a.agentId := by
  have hhuman : ∀ {userId human}, t.humanOf userId = some human → human ≠ "" := by
    intro userId human hsome
    obtain ⟨u, hu, -, rfl⟩ := humanOf_eq_some.mp hsome
    exact (h.human u hu).ne_empty
  simp only [ownershipEdge, Option.map_eq_some_iff, Option.filter_eq_some_iff, decide_eq_true_eq]
  unfold ownerOf OwnedBy
  cases hrow : t.ownerships.get? a.agentId with
  | none =>
    have hnone := Keyed.get?_eq_none_iff.mp hrow
    simp only [Option.map_eq_some_iff, Option.bind_eq_some_iff]
    constructor
    · rintro ⟨_, ⟨⟨human, ⟨userId, huser, hsome⟩, rfl⟩, -⟩, rfl⟩
      obtain ⟨u, hu, rfl, rfl⟩ := humanOf_eq_some.mp hsome
      exact ⟨u, hu, .inr ⟨hnone, huser⟩, rfl⟩
    · rintro ⟨u, hu, ⟨o, ho, hagent, -⟩ | ⟨-, huser⟩, rfl⟩
      · exact absurd hagent (hnone o ho)
      · have hsome := humanOf_eq_some.mpr ⟨u, hu, rfl, rfl⟩
        exact ⟨_, ⟨⟨u.humanId, ⟨u.id, huser, hsome⟩, rfl⟩, hhuman hsome⟩, rfl⟩
  | some o =>
    obtain ⟨ho, hagent⟩ := Keyed.get?_eq_some_iff.mp hrow
    obtain ⟨-, owner, howner, hsame⟩ := h.ownership o ho
    obtain ⟨agentId, _⟩ := o
    obtain rfl : _ = Owner.user owner.id := hsame
    have hsome := humanOf_eq_some.mpr ⟨owner, howner, rfl, rfl⟩
    simp only [hsome, Option.map_some, Option.some.injEq]
    constructor
    · rintro ⟨_, ⟨rfl, -⟩, rfl⟩
      exact ⟨owner, howner, .inl ⟨_, ho, hagent, rfl⟩, rfl⟩
    · rintro ⟨u, hu, ⟨o, ho', hagent', huser⟩ | ⟨hnone, -⟩, rfl⟩
      · have hrows := Keyed.eq_of_key ho' ho (hagent'.trans hagent.symm)
        rw [hrows] at huser
        have hid : owner.id = u.id := Owner.user.inj huser
        obtain rfl := Keyed.eq_of_key howner hu hid
        exact ⟨_, ⟨rfl, hhuman hsome⟩, rfl⟩
      · exact absurd hagent (hnone _ ho)

theorem userMembershipEdge_eq_some {m : UserMembership} (he : t.userMembershipEdge m = some e) :
    ∃ o ∈ t.organizations, ∃ u ∈ t.users, o.spaceId = m.spaceId ∧ u.id = m.userId ∧ e =
      { source := .userMembership m.id
        fields :=
          { kind := .membership, fromId := u.humanId, fromKind := .user, toId := o.principalId, toKind := .organization
            role := some (t.roleOf m.id), status := edgeStatus m.status }
        version := some m.version } := by
  obtain ⟨org, horg, he⟩ := Option.bind_eq_some_iff.mp he
  obtain ⟨human, hhuman, rfl⟩ := Option.map_eq_some_iff.mp he
  obtain ⟨o, ho, hspace, rfl⟩ := mem_orgOf horg
  obtain ⟨u, hu, huser, rfl⟩ := humanOf_eq_some.mp hhuman
  exact ⟨o, ho, u, hu, hspace, huser, rfl⟩

theorem agentMembershipEdge_eq_some {m : AgentMembership} (he : t.agentMembershipEdge m = some e) :
    ∃ o ∈ t.organizations, o.spaceId = m.spaceId ∧ e =
      { source := .agentMembership m.id
        fields :=
          { kind := .membership, fromId := m.agentId, fromKind := .agent, toId := o.principalId, toKind := .organization
            role := some "participant", status := edgeStatus m.status }
        version := some m.version
        deps := [(.userMembership m.sponsorUserMembershipId, m.sponsorVersion)] } := by
  obtain ⟨org, horg, rfl⟩ := Option.map_eq_some_iff.mp he
  obtain ⟨o, ho, hspace, rfl⟩ := mem_orgOf horg
  exact ⟨o, ho, hspace, rfl⟩

theorem ownershipEdge_source (he : t.ownershipEdge a = some e) : e.source = .ownership a.agentId := by
  obtain ⟨-, -, rfl⟩ := Option.map_eq_some_iff.mp he
  rfl

theorem userMembershipEdge_source {m : UserMembership} (he : t.userMembershipEdge m = some e) :
    e.source = .userMembership m.id := by
  obtain ⟨-, -, -, -, -, -, rfl⟩ := userMembershipEdge_eq_some he
  rfl

theorem agentMembershipEdge_source {m : AgentMembership} (he : t.agentMembershipEdge m = some e) :
    e.source = .agentMembership m.id := by
  obtain ⟨-, -, -, rfl⟩ := agentMembershipEdge_eq_some he
  rfl

theorem grantEdge_source {g : AgentAccessGrant} (he : t.grantEdge now g = some e) : e.source = .grant g.id := by
  obtain ⟨-, -, rfl⟩ := Option.map_eq_some_iff.mp he
  rfl

/-- The edges that are wanted, and those they depend on, come from rows of the tables. -/
theorem desired_source (he : e ∈ t.desiredEdges now) {key : String} :
    e.source ≠ .other key ∧ ∀ dep ∈ e.deps, dep.1 ≠ .other key := by
  rcases mem_desiredEdges.mp he with ⟨a, -, -, he⟩ | ⟨m, -, he⟩ | ⟨m, -, he⟩ | ⟨g, -, he⟩
  · obtain ⟨_, -, rfl⟩ := Option.map_eq_some_iff.mp he
    simp [owns]
  · obtain ⟨_, -, _, -, -, -, rfl⟩ := userMembershipEdge_eq_some he
    simp
  · obtain ⟨_, -, -, rfl⟩ := agentMembershipEdge_eq_some he
    simp
  · obtain ⟨_, -, rfl⟩ := Option.map_eq_some_iff.mp he
    simp

theorem grantEdge_eq_some (h : Consistent t) {g : AgentAccessGrant} (hg : g ∈ t.grants) :
    t.grantEdge now g = some e ↔ ∃ o ∈ t.organizations, ∃ u ∈ t.users, ∃ issuer ∈ t.users, o.spaceId = g.spaceId ∧
      u.id = g.granteeUserId ∧ issuer.id = g.createdByUserId ∧ e =
      { source := .grant g.id
        fields :=
          { kind := .grant, fromId := u.humanId, fromKind := .user, toId := g.agentId, toKind := .agent
            scopeOrgId := o.principalId, role := some g.role.text, status := lifecycle g.expiresAt g.revokedAt now
            issuedBy := some issuer.humanId, expiresAt := g.expiresAt, revokedAt := g.revokedAt }
        deps :=
          [(.userMembership g.granteeMembershipId, g.granteeMembershipVersion),
            (.agentMembership g.agentMembershipId, g.agentMembershipVersion)] } := by
  obtain ⟨-, -, howner, hspace⟩ := h.grant g hg
  obtain ⟨s, hs, hsid, hkind⟩ := hspace
  obtain ⟨o, ho, hspaceId⟩ := h.organization_of s hs hkind
  obtain ⟨w, hw, -, hissuer⟩ := howner
  obtain ⟨-, issuer, hissued, hsame⟩ := h.ownership w hw
  have hcreator : issuer.id = g.createdByUserId := Owner.user.inj (hsame.symm.trans hissuer)
  have horg : t.orgOf g.spaceId = some o.principalId := by
    rw [← hsid, ← hspaceId]
    exact orgOf_spaceId h ho
  have hhuman : t.humanOf g.createdByUserId = some issuer.humanId := humanOf_eq_some.mpr ⟨issuer, hissued, hcreator, rfl⟩
  simp only [grantEdge, Option.map_eq_some_iff, horg, hhuman, Option.getD_some]
  constructor
  · rintro ⟨grantee, hgrantee, rfl⟩
    obtain ⟨u, hu, huser, rfl⟩ := humanOf_eq_some.mp hgrantee
    exact ⟨o, ho, u, hu, issuer, hissued, hspaceId.trans hsid, huser, hcreator, rfl⟩
  · rintro ⟨o', ho', u, hu, issuer', hissued', hspace', huser, hcreator', rfl⟩
    obtain rfl := h.organization_space o ho o' ho' ((hspaceId.trans hsid).trans hspace'.symm)
    obtain rfl := Keyed.eq_of_key hissued hissued' (hcreator.trans hcreator'.symm)
    exact ⟨u.humanId, humanOf_eq_some.mpr ⟨u, hu, huser, rfl⟩, rfl⟩

end Tables

theorem nodup_map_filterMap {α β γ : Type} {f : α → Option β} {key : β → γ} (column : α → γ) {rows : List α}
    (hrows : rows.Nodup) (hf : ∀ r ∈ rows, ∀ b, f r = some b → key b = column r)
    (hcolumn : ∀ r ∈ rows, ∀ x ∈ rows, column r = column x → r = x) : ((rows.filterMap f).map key).Nodup := by
  induction rows with
  | nil => exact List.nodup_nil
  | cons r rest ih =>
    rw [List.nodup_cons] at hrows
    have hrest := ih hrows.2 (fun x hx => hf x (List.mem_cons_of_mem r hx))
      fun x hx y hy => hcolumn x (List.mem_cons_of_mem r hx) y (List.mem_cons_of_mem r hy)
    cases hr : f r with
    | none => rwa [List.filterMap_cons_none hr]
    | some b =>
      rw [List.filterMap_cons_some hr, List.map_cons, List.nodup_cons]
      refine ⟨fun hmem => ?_, hrest⟩
      obtain ⟨b', hb', hkey⟩ := List.mem_map.mp hmem
      obtain ⟨x, hx, hfx⟩ := List.mem_filterMap.mp hb'
      have hsame : column x = column r := by
        rw [← hf x (List.mem_cons_of_mem r hx) b' hfx, ← hf r List.mem_cons_self b hr, hkey]
      exact hrows.1 (hcolumn x (List.mem_cons_of_mem r hx) r List.mem_cons_self hsame ▸ hx)

theorem Keyed.nodup_rows {ρ κ : Type*} {key : ρ → κ} (t : Keyed key) : t.rows.Nodup := t.distinct.of_map

theorem Tables.nodup_sources (t : Tables) (now : Instant) : ((t.desiredEdges now).map (·.source)).Nodup := by
  have howners : (((t.agents.rows.filter (·.status = .active)).filterMap t.ownershipEdge).map (·.source)).Nodup :=
    nodup_map_filterMap (fun a => .ownership a.agentId) ((Keyed.nodup_rows t.agents).filter _)
      (fun _ _ _ he => ownershipEdge_source he) fun a ha b hb hid =>
        Keyed.eq_of_key (List.mem_of_mem_filter ha) (List.mem_of_mem_filter hb) (Source.ownership.inj hid)
  have husers : ((t.userMemberships.rows.filterMap t.userMembershipEdge).map (·.source)).Nodup :=
    nodup_map_filterMap (fun m => .userMembership m.id) (Keyed.nodup_rows _)
      (fun _ _ _ he => userMembershipEdge_source he) fun m hm x hx hid =>
        Keyed.eq_of_key hm hx (Source.userMembership.inj hid)
  have hagents : ((t.agentMemberships.rows.filterMap t.agentMembershipEdge).map (·.source)).Nodup :=
    nodup_map_filterMap (fun m => .agentMembership m.id) (Keyed.nodup_rows _)
      (fun _ _ _ he => agentMembershipEdge_source he) fun m hm x hx hid =>
        Keyed.eq_of_key hm hx (Source.agentMembership.inj hid)
  have hgrants : ((t.grants.rows.filterMap (t.grantEdge now)).map (·.source)).Nodup :=
    nodup_map_filterMap (fun g => .grant g.id) (Keyed.nodup_rows _) (fun _ _ _ he => grantEdge_source he)
      fun g hg x hx hid => Keyed.eq_of_key hg hx (Source.grant.inj hid)
  -- the sources of the four tables are of four kinds
  simp only [Tables.desiredEdges, List.map_append, List.nodup_append, howners, husers, hagents, hgrants, true_and]
  simp only [List.mem_append, List.mem_map, List.mem_filterMap]
  refine ⟨⟨?_, ?_⟩, ?_⟩
  · rintro _ ⟨e, ⟨a, -, ha⟩, rfl⟩ _ ⟨e', ⟨m, -, hm⟩, rfl⟩ hsame
    rw [ownershipEdge_source ha, userMembershipEdge_source hm] at hsame
    cases hsame
  · rintro _ (⟨e, ⟨a, -, ha⟩, rfl⟩ | ⟨e, ⟨a, -, ha⟩, rfl⟩) _ ⟨e', ⟨m, -, hm⟩, rfl⟩ hsame
    · rw [ownershipEdge_source ha, agentMembershipEdge_source hm] at hsame
      cases hsame
    · rw [userMembershipEdge_source ha, agentMembershipEdge_source hm] at hsame
      cases hsame
  · rintro _ ((⟨e, ⟨a, -, ha⟩, rfl⟩ | ⟨e, ⟨a, -, ha⟩, rfl⟩) | ⟨e, ⟨a, -, ha⟩, rfl⟩) _ ⟨e', ⟨m, -, hm⟩, rfl⟩ hsame
    · rw [ownershipEdge_source ha, grantEdge_source hm] at hsame
      cases hsame
    · rw [userMembershipEdge_source ha, grantEdge_source hm] at hsame
      cases hsame
    · rw [agentMembershipEdge_source ha, grantEdge_source hm] at hsame
      cases hsame

namespace Consistent

open Tables

variable {t : Tables} {now : Instant}

theorem nodup_principals (h : Consistent t) : (t.desiredPrincipals.map (·.id)).Nodup := by
  have hhumans : ((t.users.rows.map userPrincipal).map (·.id)).Nodup := by
    rw [List.map_map]
    exact (Keyed.nodup_rows t.users).map_on h.human_unique
  have hagents : ((t.agents.rows.map agentPrincipal).map (·.id)).Nodup := by
    rw [List.map_map]
    exact t.agents.distinct
  have horg {o : Organization} {w : AccessPrincipal} (hw : t.organizationPrincipal o = some w) : w.id = o.principalId := by
    obtain ⟨s, -, rfl⟩ := Option.map_eq_some_iff.mp hw
    rfl
  have horgs : ((t.organizations.rows.filterMap t.organizationPrincipal).map (·.id)).Nodup :=
    nodup_map_filterMap (·.principalId) (Keyed.nodup_rows t.organizations) (fun o _ w hw => horg hw)
      h.organization_principal
  have hhuman : ∀ x ∈ (t.users.rows.map userPrincipal).map (·.id), StartsWith 'h' x := by
    simp only [List.mem_map]
    rintro _ ⟨_, ⟨u, hu, rfl⟩, rfl⟩
    exact h.human u hu
  have hagent : ∀ x ∈ (t.agents.rows.map agentPrincipal).map (·.id), StartsWith 'a' x := by
    simp only [List.mem_map]
    rintro _ ⟨_, ⟨a, ha, rfl⟩, rfl⟩
    exact h.agent a ha
  have horganization : ∀ x ∈ (t.organizations.rows.filterMap t.organizationPrincipal).map (·.id), StartsWith 'o' x := by
    simp only [List.mem_map, List.mem_filterMap]
    rintro _ ⟨w, ⟨o, ho, hw⟩, rfl⟩
    rw [horg hw]
    exact (h.organization o ho).1
  have hpublic : StartsWith 'p' publicPrincipalId := by decide
  rw [Tables.desiredPrincipals, List.map_append, List.map_append, List.map_cons, List.cons_append, List.cons_append,
    List.nodup_cons, List.append_assoc, List.mem_append, List.mem_append, List.nodup_append, List.nodup_append]
  refine ⟨?_, hhumans, ⟨hagents, horgs, fun x hx y hy => ?_⟩, fun x hx y hy => ?_⟩
  · rintro (hmem | hmem | hmem)
    · exact hpublic.ne (hhuman _ hmem) (by decide) rfl
    · exact hpublic.ne (hagent _ hmem) (by decide) rfl
    · exact hpublic.ne (horganization _ hmem) (by decide) rfl
  · exact (hagent x hx).ne (horganization y hy) (by decide)
  · rcases List.mem_append.mp hy with hy | hy
    · exact (hhuman x hx).ne (hagent y hy) (by decide)
    · exact (hhuman x hx).ne (horganization y hy) (by decide)

theorem mem_principals_user {u : User} (hu : u ∈ t.users) : userPrincipal u ∈ t.desiredPrincipals := by
  simp only [Tables.desiredPrincipals, List.mem_append, List.mem_cons]
  exact .inl (.inl (.inr (List.mem_map_of_mem hu)))

theorem mem_principals_agent {a : Agent} (ha : a ∈ t.agents) : agentPrincipal a ∈ t.desiredPrincipals := by
  simp only [Tables.desiredPrincipals, List.mem_append]
  exact .inl (.inr (List.mem_map_of_mem ha))

theorem mem_principals_organization {o : Organization} (ho : o ∈ t.organizations) {s : Space} (hs : s ∈ t.spaces)
    (hspace : s.id = o.spaceId) : { id := o.principalId, active := s.status = .active } ∈ t.desiredPrincipals := by
  simp only [Tables.desiredPrincipals, List.mem_append, List.mem_filterMap]
  refine .inr ⟨o, ho, ?_⟩
  rw [Tables.organizationPrincipal, Keyed.get?_eq_some_iff.mpr ⟨hs, hspace⟩, Option.map_some]

theorem mem_principals_of_desired (h : Consistent t) {e : Edge} (he : e ∈ t.desiredEdges now) :
    e.fields.fromId ∈ t.desiredPrincipals.map (·.id) ∧ e.fields.toId ∈ t.desiredPrincipals.map (·.id) := by
  have hhuman {u : User} (hu : u ∈ t.users) : u.humanId ∈ t.desiredPrincipals.map (·.id) :=
    List.mem_map.mpr ⟨_, mem_principals_user hu, rfl⟩
  have hagent {a : Agent} (ha : a ∈ t.agents) : a.agentId ∈ t.desiredPrincipals.map (·.id) :=
    List.mem_map.mpr ⟨_, mem_principals_agent ha, rfl⟩
  have howned {o : AgentOwnership} (ho : o ∈ t.ownerships) : o.agentId ∈ t.desiredPrincipals.map (·.id) := by
    obtain ⟨⟨a, ha, hid⟩, -⟩ := h.ownership o ho
    exact hid ▸ hagent ha
  have horg {o : Organization} (ho : o ∈ t.organizations) : o.principalId ∈ t.desiredPrincipals.map (·.id) := by
    obtain ⟨-, s, hs, hspace⟩ := h.organization o ho
    exact List.mem_map.mpr ⟨_, mem_principals_organization ho hs hspace, rfl⟩
  rcases mem_desiredEdges.mp he with ⟨a, ha, -, he⟩ | ⟨m, hm, he⟩ | ⟨m, hm, he⟩ | ⟨g, hg, he⟩
  · obtain ⟨u, hu, -, rfl⟩ := (ownershipEdge_eq_some h).mp he
    exact ⟨hhuman hu, hagent ha⟩
  · obtain ⟨o, ho, u, hu, -, -, rfl⟩ := userMembershipEdge_eq_some he
    exact ⟨hhuman hu, horg ho⟩
  · obtain ⟨o, ho, -, rfl⟩ := agentMembershipEdge_eq_some he
    obtain ⟨-, _, -, -, -, -, w, hw, hid, -⟩ := h.agentMembership m hm
    exact ⟨hid ▸ howned hw, horg ho⟩
  · obtain ⟨o, ho, u, hu, -, -, -, -, -, rfl⟩ := (grantEdge_eq_some h hg).mp he
    obtain ⟨w, hw, hid, -⟩ := (h.grant g hg).owner
    exact ⟨hhuman hu, hid ▸ howned hw⟩

theorem revokedAt_of_open {expiresAt revokedAt : Option Instant}
    (hopen : lifecycle expiresAt revokedAt now = .pending ∨ lifecycle expiresAt revokedAt now = .active) :
    revokedAt = none := by
  by_contra hrevoked
  rw [lifecycle, if_pos hrevoked] at hopen
  rcases hopen with h | h <;> cases h

theorem eq_of_key_eq (h : Consistent t) {e e' : Edge} (he : e ∈ t.desiredEdges now) (he' : e' ∈ t.desiredEdges now)
    (hopen : e.fields.Open) (hopen' : e'.fields.Open) (hkey : e.fields.key = e'.fields.key) : e = e' := by
  simp only [Fields.key, Prod.mk.injEq] at hkey
  obtain ⟨hkind, hfrom, hto, hscope⟩ := hkey
  have hagent {m : AgentMembership} (hm : m ∈ t.agentMemberships) : StartsWith 'a' m.agentId := by
    obtain ⟨-, _, -, -, -, -, w, hw, hid, -⟩ := h.agentMembership m hm
    obtain ⟨⟨a, ha, haid⟩, -⟩ := h.ownership w hw
    rw [← hid, ← haid]
    exact h.agent a ha
  rcases mem_desiredEdges.mp he with ⟨a, ha, -, he⟩ | ⟨m, hm, he⟩ | ⟨m, hm, he⟩ | ⟨g, hg, he⟩
  · obtain ⟨u, -, -, rfl⟩ := (ownershipEdge_eq_some h).mp he
    rcases mem_desiredEdges.mp he' with ⟨a', ha', -, he'⟩ | ⟨m', -, he'⟩ | ⟨m', -, he'⟩ | ⟨g', hg', he'⟩
    · obtain ⟨u', -, -, rfl⟩ := (ownershipEdge_eq_some h).mp he'
      obtain rfl := Keyed.eq_of_key ha ha' hto
      exact Option.some.inj (he.symm.trans he')
    · obtain ⟨_, -, _, -, -, -, rfl⟩ := userMembershipEdge_eq_some he'
      cases hkind
    · obtain ⟨_, -, -, rfl⟩ := agentMembershipEdge_eq_some he'
      cases hkind
    · obtain ⟨_, -, rfl⟩ := Option.map_eq_some_iff.mp he'
      cases hkind
  · obtain ⟨o, ho, u, hu, hspace, huser, rfl⟩ := userMembershipEdge_eq_some he
    rcases mem_desiredEdges.mp he' with ⟨a', -, -, he'⟩ | ⟨m', hm', he'⟩ | ⟨m', hm', he'⟩ | ⟨g', -, he'⟩
    · obtain ⟨_, -, -, rfl⟩ := (ownershipEdge_eq_some h).mp he'
      cases hkind
    · obtain ⟨o', ho', u', hu', hspace', huser', rfl⟩ := userMembershipEdge_eq_some he'
      obtain rfl := h.organization_principal o ho o' ho' hto
      obtain rfl := h.human_unique u hu u' hu' hfrom
      obtain rfl := h.user_pair m hm m' hm' (hspace.symm.trans hspace') (huser.symm.trans huser')
      rfl
    · obtain ⟨o', -, -, rfl⟩ := agentMembershipEdge_eq_some he'
      exact absurd hfrom ((h.human u hu).ne (hagent hm') (by decide))
    · obtain ⟨_, -, rfl⟩ := Option.map_eq_some_iff.mp he'
      cases hkind
  · obtain ⟨o, ho, hspace, rfl⟩ := agentMembershipEdge_eq_some he
    rcases mem_desiredEdges.mp he' with ⟨a', -, -, he'⟩ | ⟨m', hm', he'⟩ | ⟨m', hm', he'⟩ | ⟨g', -, he'⟩
    · obtain ⟨_, -, -, rfl⟩ := (ownershipEdge_eq_some h).mp he'
      cases hkind
    · obtain ⟨o', -, u', hu', -, -, rfl⟩ := userMembershipEdge_eq_some he'
      exact absurd hfrom.symm ((h.human u' hu').ne (hagent hm) (by decide))
    · obtain ⟨o', ho', hspace', rfl⟩ := agentMembershipEdge_eq_some he'
      obtain rfl := h.organization_principal o ho o' ho' hto
      obtain rfl := h.agent_pair m hm m' hm' (hspace.symm.trans hspace') hfrom
      rfl
    · obtain ⟨_, -, rfl⟩ := Option.map_eq_some_iff.mp he'
      cases hkind
  · obtain ⟨o, ho, u, hu, _, -, hspace, huser, -, rfl⟩ := (grantEdge_eq_some h hg).mp he
    rcases mem_desiredEdges.mp he' with ⟨a', -, -, he'⟩ | ⟨m', -, he'⟩ | ⟨m', -, he'⟩ | ⟨g', hg', he'⟩
    · obtain ⟨_, -, -, rfl⟩ := (ownershipEdge_eq_some h).mp he'
      cases hkind
    · obtain ⟨_, -, _, -, -, -, rfl⟩ := userMembershipEdge_eq_some he'
      cases hkind
    · obtain ⟨_, -, -, rfl⟩ := agentMembershipEdge_eq_some he'
      cases hkind
    · obtain ⟨o', ho', u', hu', _, -, hspace', huser', -, rfl⟩ := (grantEdge_eq_some h hg').mp he'
      obtain rfl := h.organization_principal o ho o' ho' hscope
      obtain rfl := h.human_unique u hu u' hu' hfrom
      have hpair : SamePair g g' := ⟨hspace.symm.trans hspace', hto, huser.symm.trans huser'⟩
      obtain rfl := h.one_live g hg g' hg' hpair (revokedAt_of_open hopen) (revokedAt_of_open hopen')
      exact Option.some.inj (he.symm.trans he')

theorem projectable (h : Consistent t) (now : Instant) : Projectable t now where
  sources := t.nodup_sources now
  keys _ he _ he' := h.eq_of_key_eq he he'
  ends _ := h.mem_principals_of_desired
  principals := h.nodup_principals

end Consistent

end BotCord.Spaces
