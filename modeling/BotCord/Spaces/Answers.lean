import BotCord.Spaces.Consistent

/-!
# What the projected graph answers

The graph of a projection, asked about owners and grants, in terms of the tables it was projected from: an agent is owned by the user that owns it there, and a grant is valid while its row and the rows it refers to are alive. The answer holds for every session and, for a grant, at every time from the projection on.
-/

namespace BotCord.Spaces

open Access (AccessEdge AccessEdgeDep Graph liveEdges validGrants mem_liveEdges mem_validGrants)
open Tables

/-- `grant_edge_valid` -/
def grantEdgeValid {graph : Graph} (db : Access.Session graph) (edge : AccessEdge) (now : Instant) : Bool :=
  !(validGrants db (liveEdges db (fun e => e.id = edge.id) now) now).isEmpty

/-- `grant_is_valid`: the answer of the graph for the edge of the grant. -/
def grantIsValid (p : Projection) (db : Access.Session p.graph) (grant : GrantId) (now : Instant) : Bool :=
  (p.rows.get? (.grant grant)).any fun row => grantEdgeValid db row.toEdge now

def Projection.sourceOf (p : Projection) (e : AccessEdge) : Option Source :=
  (p.rows.rows.find? (·.id = e.id)).map (·.source)

/-- `valid_grant_ids`: all grants in one query. -/
def validGrantIds (p : Projection) (db : Access.Session p.graph) (grants : List AgentAccessGrant) (now : Instant) :
    List GrantId :=
  if grants.isEmpty then []
  else
    let bySource := fun source => (grants.find? fun g => source = .grant g.id).map (·.id)
    let live := liveEdges db (fun e => (p.sourceOf e).any fun source => (bySource source).isSome) now
    (validGrants db live now).filterMap fun e => (p.sourceOf e).bind bySource

section Rows

variable {t : Tables} {p : Projection} {time now : Instant} {row : EdgeRow} {e : AccessEdge}

theorem mem_graph : e ∈ p.graph.edges ↔ ∃ row ∈ p.rows, row.toEdge = e := List.mem_map

theorem sourceOf_toEdge (hrow : row ∈ p.rows) : p.sourceOf row.toEdge = some row.source := by
  have hfind : p.rows.rows.find? (·.id = row.toEdge.id) = some row := Table.find?_eq_some_of_mem p.ids hrow
  rw [Projection.sourceOf, hfind, Option.map_some]

theorem Mirrors.settled (h : Mirrors t p time) (hrow : row ∈ p.rows) (hkind : WriteThrough row.fields.kind)
    (hopen : row.fields.Open) : ∃ want ∈ t.desiredEdges time, Settled row want := by
  obtain ⟨want, hwant, hsource⟩ := h.wanted row hrow hkind hopen
  obtain ⟨row', hrow', hsettled⟩ := h.edge want hwant
  obtain rfl := Keyed.eq_of_key hrow hrow' (hsource.symm.trans hsettled.source.symm)
  exact ⟨want, hwant, hsettled⟩

/-- The dependencies of a wanted edge are intact if the rows it depends on are live at the versions it names. -/
theorem Mirrors.live_iff (h : Mirrors t p time) (hrow : row ∈ p.rows) {want : Edge} (hwant : want ∈ t.desiredEdges time)
    (hsettled : Settled row want) : p.graph.Live now row.toEdge ↔
      row.fields.status = .active ∧ row.fields.expiresAt.all (now < ·) = true ∧
        ∀ dep ∈ want.deps, ∀ r ∈ p.rows, r.source = dep.1 → r.fields.status = .active ∧ r.version = dep.2 := by
  have hdeps := h.deps want hwant row hrow hsettled.source
  refine and_congr_right fun _ => and_congr_right fun _ => ?_
  constructor
  · intro hlive dep hdep r hr hsource
    obtain ⟨hmem, hid⟩ := (hdeps _).mpr (Projection.mem_targets.mpr ⟨dep, hdep, r, hr, hsource, rfl⟩)
    exact hlive _ hmem hid r.toEdge (mem_graph.mpr ⟨r, hr, rfl⟩) rfl
  · intro hlive d hd hid x hx hxid
    obtain ⟨dep, hdep, r, hr, hsource, rfl⟩ := Projection.mem_targets.mp ((hdeps d).mp ⟨hd, hid⟩)
    obtain ⟨r', hr', rfl⟩ := mem_graph.mp hx
    obtain rfl := Projection.eq_of_id hr hr' hxid.symm
    exact hlive dep hdep r hr hsource

theorem Mirrors.activePrincipal_iff (h : Mirrors t p time) {w : Access.AccessPrincipal} (hw : w ∈ t.desiredPrincipals) :
    p.graph.ActivePrincipal w.id ↔ w.active = true := by
  constructor
  · rintro ⟨q, hq, hid, hactive⟩
    rwa [← Keyed.eq_of_key hq (h.principal w hw) hid]
  · intro hactive
    exact ⟨w, h.principal w hw, rfl, hactive⟩

end Rows

section Owners

variable {t : Tables} {p : Projection} {time now : Instant}

theorem Mirrors.ownership_row (h : Mirrors t p time) {row : EdgeRow} (hrow : row ∈ p.rows)
    (hkind : row.fields.kind = .ownership) (hopen : row.fields.Open) :
    ∃ a ∈ t.agents, a.status = .active ∧ ∃ want ∈ t.desiredEdges time, t.ownershipEdge a = some want ∧ Settled row want ∧
      row.fields.toId = a.agentId ∧ row.source = .ownership a.agentId := by
  obtain ⟨want, hwant, hsettled⟩ := h.settled hrow (.inl hkind) hopen
  rw [hsettled.fields] at hkind
  rcases mem_desiredEdges.mp hwant with ⟨a, ha, hactive, he⟩ | ⟨m, -, he⟩ | ⟨m, -, he⟩ | ⟨g, -, he⟩
  · refine ⟨a, ha, hactive, want, hwant, he, hsettled, ?_, hsettled.source.trans (ownershipEdge_source he)⟩
    obtain ⟨_, -, rfl⟩ := Option.map_eq_some_iff.mp he
    exact congrArg Fields.toId hsettled.fields
  · obtain ⟨_, -, _, -, -, -, rfl⟩ := userMembershipEdge_eq_some he
    cases hkind
  · obtain ⟨_, -, -, rfl⟩ := agentMembershipEdge_eq_some he
    cases hkind
  · obtain ⟨_, -, rfl⟩ := Option.map_eq_some_iff.mp he
    cases hkind

theorem Mirrors.soleOwners (h : Mirrors t p time) : p.graph.SoleOwners now := by
  rintro x hx y hy ⟨hlivex, hkindx⟩ ⟨hlivey, hkindy⟩ hto
  obtain ⟨rx, hrx, rfl⟩ := mem_graph.mp hx
  obtain ⟨ry, hry, rfl⟩ := mem_graph.mp hy
  obtain ⟨a, _, _, _, _, _, _, htoa, hsourcea⟩ := h.ownership_row hrx hkindx (.inr hlivex.1)
  obtain ⟨b, _, _, _, _, _, _, htob, hsourceb⟩ := h.ownership_row hry hkindy (.inr hlivey.1)
  have hagent : a.agentId = b.agentId := htoa.symm.trans (hto.trans htob)
  rw [Keyed.eq_of_key hrx hry (by rw [hsourcea, hsourceb, hagent])]

theorem Mirrors.ownedBy_iff (h : Mirrors t p time) (ht : Consistent t) {agentId owner : PrincipalId} :
    p.graph.OwnedBy now agentId owner ↔ ∃ a ∈ t.agents, a.agentId = agentId ∧ a.status = .active ∧
      ∃ u ∈ t.users, t.OwnedBy a u.id ∧ u.humanId = owner := by
  constructor
  · rintro ⟨e, he, hlive, hkind, rfl, rfl⟩
    obtain ⟨row, hrow, rfl⟩ := mem_graph.mp he
    obtain ⟨a, ha, hactive, want, -, hedge, hsettled, hto, -⟩ := h.ownership_row hrow hkind (.inr hlive.1)
    obtain ⟨u, hu, howned, rfl⟩ := (ownershipEdge_eq_some ht).mp hedge
    exact ⟨a, ha, hto.symm, hactive, u, hu, howned, congrArg Fields.fromId hsettled.fields.symm⟩
  · rintro ⟨a, ha, rfl, hactive, u, hu, howned, rfl⟩
    have hedge := (ownershipEdge_eq_some ht).mpr ⟨u, hu, howned, rfl⟩
    have hwant : owns u.humanId .user a.agentId ∈ t.desiredEdges time :=
      mem_desiredEdges.mpr (.inl ⟨a, ha, hactive, hedge⟩)
    obtain ⟨row, hrow, hsettled⟩ := h.edge _ hwant
    have hfields : row.fields = (owns u.humanId .user a.agentId).fields := hsettled.fields
    refine ⟨row.toEdge, mem_graph.mpr ⟨row, hrow, rfl⟩, ?_, ?_, ?_, ?_⟩
    · rw [h.live_iff hrow hwant hsettled, hfields]
      exact ⟨rfl, rfl, fun dep hdep => absurd hdep List.not_mem_nil⟩
    · exact congrArg Fields.kind hfields
    · exact congrArg Fields.toId hfields
    · exact congrArg Fields.fromId hfields

end Owners

/-- What both the graph and the lifecycle check ask of a grant: it is neither revoked nor expired, the memberships it names have not changed, and the space, the grantee and the agent are active. -/
structure Alive (t : Tables) (g : AgentAccessGrant) (now : Instant) : Prop where
  unrevoked : g.revokedAt = none
  unexpired : g.expiresAt.all (now < ·) = true
  space : ∃ s ∈ t.spaces, s.id = g.spaceId ∧ s.status = .active
  grantee : ∃ m ∈ t.userMemberships, m.id = g.granteeMembershipId ∧ m.status = .active ∧
    m.version = g.granteeMembershipVersion
  granteeUser : ∃ u ∈ t.users, u.id = g.granteeUserId ∧ u.Enabled
  membership : ∃ m ∈ t.agentMemberships, m.id = g.agentMembershipId ∧ m.status = .active ∧
    m.version = g.agentMembershipVersion
  agent : ∃ a ∈ t.agents, a.agentId = g.agentId ∧ a.status = .active

section Grants

variable {t : Tables} {p : Projection} {time now : Instant}

theorem edgeStatus_eq_active {status : MembershipStatus} : edgeStatus status = .active ↔ status = .active := by
  cases status <;> simp [edgeStatus]

/-- A source has one row. -/
theorem forall_source_iff {row : EdgeRow} (hrow : row ∈ p.rows) {source : Source} (hsource : row.source = source)
    {status : MembershipStatus} (hstatus : row.fields.status = edgeStatus status) {version version' : ℕ}
    (hversion : row.version = version') :
    (∀ r ∈ p.rows, r.source = source → r.fields.status = .active ∧ r.version = version) ↔
      status = .active ∧ version' = version := by
  rw [← hversion, ← edgeStatus_eq_active, ← hstatus]
  constructor
  · intro hall
    exact hall row hrow hsource
  · intro hlive r hr hsame
    rwa [Keyed.eq_of_key hr hrow (hsame.trans hsource.symm)]

theorem Mirrors.userMembership_iff (h : Mirrors t p time) (ht : Consistent t) {m : UserMembership}
    (hm : m ∈ t.userMemberships) {o : Organization} (ho : o ∈ t.organizations) (hspace : o.spaceId = m.spaceId)
    {version : ℕ} : (∀ r ∈ p.rows, r.source = .userMembership m.id → r.fields.status = .active ∧ r.version = version) ↔
      m.status = .active ∧ m.version = version := by
  obtain ⟨hpos, u, hu, huser⟩ := ht.userMembership m hm
  have horg : t.orgOf m.spaceId = some o.principalId := hspace ▸ orgOf_spaceId ht ho
  have hhuman : t.humanOf m.userId = some u.humanId := humanOf_eq_some.mpr ⟨u, hu, huser, rfl⟩
  obtain ⟨want, hedge⟩ : ∃ want, t.userMembershipEdge m = some want := by
    rw [userMembershipEdge, horg, hhuman]
    exact ⟨_, rfl⟩
  obtain ⟨row, hrow, hsettled⟩ := h.edge want (mem_desiredEdges.mpr (.inr (.inl ⟨m, hm, hedge⟩)))
  obtain ⟨_, -, _, -, -, -, rfl⟩ := userMembershipEdge_eq_some hedge
  exact forall_source_iff hrow hsettled.source (congrArg Fields.status hsettled.fields) (hsettled.version m.version rfl hpos)

theorem Mirrors.agentMembership_iff (h : Mirrors t p time) (ht : Consistent t) {m : AgentMembership}
    (hm : m ∈ t.agentMemberships) {o : Organization} (ho : o ∈ t.organizations) (hspace : o.spaceId = m.spaceId)
    {version : ℕ} : (∀ r ∈ p.rows, r.source = .agentMembership m.id → r.fields.status = .active ∧ r.version = version) ↔
      m.status = .active ∧ m.version = version := by
  have hpos := (ht.agentMembership m hm).version
  have horg : t.orgOf m.spaceId = some o.principalId := hspace ▸ orgOf_spaceId ht ho
  obtain ⟨want, hedge⟩ : ∃ want, t.agentMembershipEdge m = some want := by
    rw [agentMembershipEdge, horg]
    exact ⟨_, rfl⟩
  obtain ⟨row, hrow, hsettled⟩ := h.edge want (mem_desiredEdges.mpr (.inr (.inr (.inl ⟨m, hm, hedge⟩))))
  obtain ⟨_, -, -, rfl⟩ := agentMembershipEdge_eq_some hedge
  exact forall_source_iff hrow hsettled.source (congrArg Fields.status hsettled.fields) (hsettled.version m.version rfl hpos)

/-- At and after the projection a grant is active while it is neither revoked nor expired. -/
theorem lifecycle_active (hle : time ≤ now) {expiresAt revokedAt : Option Instant} :
    lifecycle expiresAt revokedAt time = .active ∧ expiresAt.all (now < ·) = true ↔
      revokedAt = none ∧ expiresAt.all (now < ·) = true := by
  refine and_congr_left fun hunexpired => ?_
  unfold lifecycle
  by_cases hrevoked : revokedAt = none
  · have hexpiry : ¬ expiresAt.any (· ≤ time) = true := by
      cases expiresAt with
      | none => simp
      | some expiry =>
        simp only [Option.all_some, decide_eq_true_eq, Option.any_some] at hunexpired ⊢
        exact not_le.mpr (hle.trans_lt hunexpired)
    simp [hrevoked, hexpiry]
  · simp [hrevoked]

theorem grantEdgeValid_iff {graph : Graph} (hsole : graph.SoleOwners now) (db : Access.Session graph) {e : AccessEdge}
    (he : e ∈ graph.edges) : grantEdgeValid db e now = true ↔ graph.Live now e ∧ graph.Backed now e := by
  rw [grantEdgeValid, Bool.not_eq_true', List.isEmpty_eq_false_iff_exists_mem]
  simp only [mem_validGrants hsole, mem_liveEdges, decide_eq_true_eq]
  constructor
  · rintro ⟨x, ⟨hx, hlive, hid⟩, hbacked⟩
    obtain rfl := List.inj_on_of_nodup_map graph.edges_distinct hx he hid
    exact ⟨hlive, hbacked⟩
  · rintro ⟨hlive, hbacked⟩
    exact ⟨e, ⟨he, hlive, rfl⟩, hbacked⟩

structure Referred (t : Tables) (g : AgentAccessGrant) where
  space : Space
  organization : Organization
  grantee : UserMembership
  granteeUser : User
  membership : AgentMembership
  agent : Agent
  issuer : User
  space_mem : space ∈ t.spaces ∧ space.id = g.spaceId
  organization_mem : organization ∈ t.organizations ∧ organization.spaceId = g.spaceId
  grantee_mem : grantee ∈ t.userMemberships ∧ grantee.id = g.granteeMembershipId ∧ grantee.spaceId = g.spaceId
  granteeUser_mem : granteeUser ∈ t.users ∧ granteeUser.id = g.granteeUserId
  membership_mem : membership ∈ t.agentMemberships ∧ membership.id = g.agentMembershipId ∧ membership.spaceId = g.spaceId
  agent_mem : agent ∈ t.agents ∧ agent.agentId = g.agentId
  issuer_mem : issuer ∈ t.users ∧ issuer.id = g.createdByUserId
  owned : t.OwnedBy agent issuer.id

theorem exists_referred (ht : Consistent t) {g : AgentAccessGrant} (hg : g ∈ t.grants) : Nonempty (Referred t g) := by
  have hgranted := ht.grant g hg
  obtain ⟨am, ham, hamid, hamspace, -⟩ := hgranted.agent
  obtain ⟨um, hum, humid, humspace, humuser, -⟩ := hgranted.grantee
  obtain ⟨w, hw, hwagent, hwowner⟩ := hgranted.owner
  obtain ⟨⟨a, ha, haid⟩, issuer, hissuer, hissued⟩ := ht.ownership w hw
  obtain ⟨s, hs, hsid, hskind⟩ := hgranted.space
  obtain ⟨o, ho, hospace⟩ := ht.organization_of s hs hskind
  obtain ⟨-, u, hu, huser⟩ := ht.userMembership um hum
  exact ⟨{
    space := s, organization := o, grantee := um, granteeUser := u, membership := am, agent := a, issuer
    space_mem := ⟨hs, hsid⟩
    organization_mem := ⟨ho, hospace.trans hsid⟩
    grantee_mem := ⟨hum, humid, humspace⟩
    granteeUser_mem := ⟨hu, huser.trans humuser⟩
    membership_mem := ⟨ham, hamid, hamspace⟩
    agent_mem := ⟨ha, haid.trans hwagent⟩
    issuer_mem := ⟨hissuer, Owner.user.inj (hissued.symm.trans hwowner)⟩
    owned := .inl ⟨w, hw, haid.symm, hissued⟩ }⟩

namespace Referred

variable {g : AgentAccessGrant} (r : Referred t g)

def edge (time : Instant) : Edge where
  source := .grant g.id
  fields :=
    { kind := .grant, fromId := r.granteeUser.humanId, fromKind := .user, toId := g.agentId, toKind := .agent
      scopeOrgId := r.organization.principalId, role := some g.role.text
      status := lifecycle g.expiresAt g.revokedAt time, issuedBy := some r.issuer.humanId, expiresAt := g.expiresAt
      revokedAt := g.revokedAt }
  deps :=
    [(.userMembership g.granteeMembershipId, g.granteeMembershipVersion),
      (.agentMembership g.agentMembershipId, g.agentMembershipVersion)]

theorem edge_mem (ht : Consistent t) (hg : g ∈ t.grants) : r.edge time ∈ t.desiredEdges time := by
  refine mem_desiredEdges.mpr (.inr (.inr (.inr ⟨g, hg, (grantEdge_eq_some ht hg).mpr ?_⟩)))
  exact ⟨r.organization, r.organization_mem.1, r.granteeUser, r.granteeUser_mem.1, r.issuer, r.issuer_mem.1,
    r.organization_mem.2, r.granteeUser_mem.2, r.issuer_mem.2, rfl⟩

theorem alive_iff : Alive t g now ↔ (g.revokedAt = none ∧ g.expiresAt.all (now < ·) = true) ∧
    (r.grantee.status = .active ∧ r.grantee.version = g.granteeMembershipVersion) ∧
    (r.membership.status = .active ∧ r.membership.version = g.agentMembershipVersion) ∧
    r.space.status = .active ∧ r.granteeUser.Enabled ∧ r.agent.status = .active := by
  constructor
  · rintro ⟨hunrevoked, hunexpired, ⟨s, hs, hsid, hspace⟩, ⟨um, hum, humid, hgrantee⟩, ⟨u, hu, huid, huser⟩,
      ⟨am, ham, hamid, hmembership⟩, ⟨a, ha, haid, hagent⟩⟩
    obtain rfl := Keyed.eq_of_key hs r.space_mem.1 (hsid.trans r.space_mem.2.symm)
    obtain rfl := Keyed.eq_of_key hum r.grantee_mem.1 (humid.trans r.grantee_mem.2.1.symm)
    obtain rfl := Keyed.eq_of_key hu r.granteeUser_mem.1 (huid.trans r.granteeUser_mem.2.symm)
    obtain rfl := Keyed.eq_of_key ham r.membership_mem.1 (hamid.trans r.membership_mem.2.1.symm)
    obtain rfl := Keyed.eq_of_key ha r.agent_mem.1 (haid.trans r.agent_mem.2.symm)
    exact ⟨⟨hunrevoked, hunexpired⟩, hgrantee, hmembership, hspace, huser, hagent⟩
  · rintro ⟨⟨hunrevoked, hunexpired⟩, hgrantee, hmembership, hspace, huser, hagent⟩
    exact
      { unrevoked := hunrevoked
        unexpired := hunexpired
        space := ⟨r.space, r.space_mem.1, r.space_mem.2, hspace⟩
        grantee := ⟨r.grantee, r.grantee_mem.1, r.grantee_mem.2.1, hgrantee⟩
        granteeUser := ⟨r.granteeUser, r.granteeUser_mem.1, r.granteeUser_mem.2, huser⟩
        membership := ⟨r.membership, r.membership_mem.1, r.membership_mem.2.1, hmembership⟩
        agent := ⟨r.agent, r.agent_mem.1, r.agent_mem.2, hagent⟩ }

/-- The edge of the grant is live while the grant is neither revoked nor expired and the memberships it names stay as they are. -/
theorem live_iff (ht : Consistent t) (h : Mirrors t p time) (hle : time ≤ now) (hg : g ∈ t.grants) {row : EdgeRow}
    (hrow : row ∈ p.rows) (hsettled : Settled row (r.edge time)) : p.graph.Live now row.toEdge ↔
      (g.revokedAt = none ∧ g.expiresAt.all (now < ·) = true) ∧
        (r.grantee.status = .active ∧ r.grantee.version = g.granteeMembershipVersion) ∧
        (r.membership.status = .active ∧ r.membership.version = g.agentMembershipVersion) := by
  have hfields : row.fields = (r.edge time).fields := hsettled.fields
  have hdeps : (r.edge time).deps = [(.userMembership r.grantee.id, g.granteeMembershipVersion),
      (.agentMembership r.membership.id, g.agentMembershipVersion)] := by
    rw [r.grantee_mem.2.1, r.membership_mem.2.1]
    rfl
  rw [h.live_iff hrow (r.edge_mem ht hg) hsettled, hfields, hdeps, ← and_assoc, ← lifecycle_active hle,
    ← h.userMembership_iff ht r.grantee_mem.1 r.organization_mem.1 (r.organization_mem.2.trans r.grantee_mem.2.2.symm),
    ← h.agentMembership_iff ht r.membership_mem.1 r.organization_mem.1
      (r.organization_mem.2.trans r.membership_mem.2.2.symm)]
  simp only [List.forall_mem_cons, List.not_mem_nil, false_imp_iff, implies_true, and_true]
  rfl

theorem backed_iff (ht : Consistent t) (h : Mirrors t p time) {row : EdgeRow} (hsettled : Settled row (r.edge time)) :
    p.graph.Backed now row.toEdge ↔
      r.space.status = .active ∧ r.granteeUser.Enabled ∧ r.agent.status = .active := by
  have hfields : row.fields = (r.edge time).fields := hsettled.fields
  have huser := h.activePrincipal_iff (Consistent.mem_principals_user r.granteeUser_mem.1)
  have hagent := h.activePrincipal_iff (Consistent.mem_principals_agent r.agent_mem.1)
  have horg := h.activePrincipal_iff (Consistent.mem_principals_organization r.organization_mem.1 r.space_mem.1
    (r.space_mem.2.trans r.organization_mem.2.symm))
  simp only [userPrincipal, agentPrincipal, decide_eq_true_eq, r.agent_mem.2] at huser hagent horg
  have hhuman : r.granteeUser.humanId ≠ "" := (ht.human _ r.granteeUser_mem.1).ne_empty
  have hissuer : r.issuer.humanId ≠ "" := (ht.human _ r.issuer_mem.1).ne_empty
  have hid : g.agentId ≠ "" := r.agent_mem.2 ▸ (ht.agent _ r.agent_mem.1).ne_empty
  have hprincipal : r.organization.principalId ≠ "" := (ht.organization _ r.organization_mem.1).1.ne_empty
  have howned : p.graph.OwnedBy now g.agentId r.issuer.humanId ↔ r.agent.status = .active := by
    rw [h.ownedBy_iff ht]
    constructor
    · rintro ⟨a, ha, haid, hactive, -⟩
      rwa [← Keyed.eq_of_key ha r.agent_mem.1 (haid.trans r.agent_mem.2.symm)]
    · intro hactive
      exact ⟨r.agent, r.agent_mem.1, r.agent_mem.2, hactive, r.issuer, r.issuer_mem.1, r.owned, rfl⟩
  unfold Graph.Backed
  simp only [EdgeRow.toEdge, hfields, edge, Option.some.injEq, exists_eq_left', hissuer, howned, hhuman, huser, hid,
    hagent, hprincipal, horg, ne_eq, not_false_eq_true, true_and, false_or]
  constructor
  · rintro ⟨hactive, hgrantee, -, hspace⟩
    exact ⟨hspace, hgrantee, hactive⟩
  · rintro ⟨hspace, hgrantee, hactive⟩
    exact ⟨hactive, hgrantee, hactive, hspace⟩

end Referred

/-- A grant is valid in the graph, from the projection on, while it is alive in the tables. -/
theorem Mirrors.grantIsValid_iff (h : Mirrors t p time) (ht : Consistent t) (hle : time ≤ now)
    (db : Access.Session p.graph) {g : AgentAccessGrant} (hg : g ∈ t.grants) :
    grantIsValid p db g.id now = true ↔ Alive t g now := by
  obtain ⟨r⟩ := exists_referred ht hg
  obtain ⟨row, hrow, hsettled⟩ := h.edge _ (r.edge_mem ht hg)
  have hget : p.rows.get? (.grant g.id) = some row := Keyed.get?_eq_some_iff.mpr ⟨hrow, hsettled.source⟩
  rw [grantIsValid, hget, Option.any_some, grantEdgeValid_iff h.soleOwners db (mem_graph.mpr ⟨row, hrow, rfl⟩),
    r.live_iff ht h hle hg hrow hsettled, r.backed_iff ht h hsettled, r.alive_iff]
  simp only [and_assoc]

theorem find_grant {grants : List AgentAccessGrant} {source : Source} {id : GrantId} :
    (grants.find? fun g => source = .grant g.id).map (·.id) = some id ↔ source = .grant id ∧ id ∈ grants.map (·.id) := by
  constructor
  · intro h
    obtain ⟨g, hfind, rfl⟩ := Option.map_eq_some_iff.mp h
    exact ⟨by simpa using List.find?_some hfind, List.mem_map_of_mem (List.mem_of_find?_eq_some hfind)⟩
  · rintro ⟨rfl, hid⟩
    obtain ⟨g, hg, rfl⟩ := List.mem_map.mp hid
    cases hfind : grants.find? fun x => Source.grant g.id = .grant x.id with
    | none => exact absurd (List.find?_eq_none.mp hfind g hg) (by simp)
    | some x =>
      have hsame : Source.grant g.id = .grant x.id := by simpa using List.find?_some hfind
      rw [Option.map_some, Source.grant.inj hsame]

theorem Mirrors.mem_validGrantIds (h : Mirrors t p time) (many one : Access.Session p.graph)
    (grants : List AgentAccessGrant) {id : GrantId} :
    id ∈ validGrantIds p many grants now ↔ id ∈ grants.map (·.id) ∧ grantIsValid p one id now = true := by
  unfold validGrantIds grantIsValid
  split_ifs with hempty
  · simp [List.isEmpty_iff.mp hempty]
  · simp only [List.mem_filterMap, mem_validGrants h.soleOwners, mem_liveEdges, Option.any_eq_true,
      Option.bind_eq_some_iff, find_grant, Option.isSome_iff_exists]
    constructor
    · rintro ⟨e, ⟨⟨he, hlive, -⟩, hbacked⟩, source, hsource, rfl, hid⟩
      obtain ⟨row, hrow, rfl⟩ := mem_graph.mp he
      rw [sourceOf_toEdge hrow, Option.some.injEq] at hsource
      exact ⟨hid, row, Keyed.get?_eq_some_iff.mpr ⟨hrow, hsource⟩,
        (grantEdgeValid_iff h.soleOwners one he).mpr ⟨hlive, hbacked⟩⟩
    · rintro ⟨hid, row, hget, hvalid⟩
      obtain ⟨hrow, hsource⟩ := Keyed.get?_eq_some_iff.mp hget
      have he : row.toEdge ∈ p.graph.edges := mem_graph.mpr ⟨row, hrow, rfl⟩
      obtain ⟨hlive, hbacked⟩ := (grantEdgeValid_iff h.soleOwners one he).mp hvalid
      have hknown : p.sourceOf row.toEdge = some (.grant id) := hsource ▸ sourceOf_toEdge hrow
      exact ⟨row.toEdge, ⟨⟨he, hlive, _, hknown, id, rfl, hid⟩, hbacked⟩, _, hknown, rfl, hid⟩

end Grants

end BotCord.Spaces
