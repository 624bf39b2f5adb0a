import BotCord.Spaces.Answers
import BotCord.Spaces.Hub

/-!
# The graph and the lifecycle check

The lifecycle check walks the tables; the graph walks edges. Both ask that a grant is alive. The lifecycle check asks for more: the one who issued the grant has to be an enabled user, and the agent still has to be bound to it. The graph takes the owner from the ownership table, which outlasts a binding, and does not look at the issuer's account.
-/

namespace BotCord.Spaces

open Tables Transaction

section Returns

variable {σ : Session Tables} {spaceId : SpaceId} {agentId : AgentId}

theorem exec_activeUser {u : User} (hu : u ∈ σ.view.users) (henabled : u.Enabled) :
    exec (activeUser u.id) σ = (.ok u, σ) := by
  rw [activeUser, exec_view_bind, Keyed.get?_eq_some_iff.mpr ⟨hu, rfl⟩, exec_require_bind_ok]
  exact ⟨henabled, rfl⟩

theorem exec_requireMembership (ht : Consistent σ.view) {userId : UserId} {m : UserMembership}
    (h : Member σ.view spaceId userId m) : exec (requireMembership spaceId userId) σ = (.ok m, σ) := by
  obtain ⟨u, hu, rfl, henabled⟩ := h.enabled
  obtain ⟨s, hs, hsid, hspace⟩ := h.open_
  have hfind : σ.view.membershipOf spaceId u.id = some m := by
    cases hfind : σ.view.membershipOf spaceId u.id with
    | none => exact absurd ⟨h.space, h.user⟩ (membershipOf_eq_none hfind h.mem)
    | some x =>
      obtain ⟨hx, hxspace, hxuser⟩ := membershipOf_eq_some hfind
      rw [ht.user_pair x hx m h.mem (hxspace.trans h.space.symm) (hxuser.trans h.user.symm)]
  rw [requireMembership, exec_bind_ok]
  refine ⟨u, σ, exec_activeUser hu henabled, ?_⟩
  rw [exec_view_bind, hfind, Keyed.get?_eq_some_iff.mpr ⟨hs, hsid⟩, exec_require_bind_ok]
  exact ⟨⟨hspace, h.status⟩, rfl⟩

theorem exec_requireAgentMembership (ht : Consistent σ.view) {m : AgentMembership} {s : UserMembership}
    (h : AgentMember σ.view spaceId agentId m s) : exec (requireAgentMembership spaceId agentId) σ = (.ok m, σ) := by
  obtain ⟨x, hx⟩ := h.member
  have hfind : σ.view.agentMembershipOf spaceId agentId = some m := by
    cases hfind : σ.view.agentMembershipOf spaceId agentId with
    | none => exact absurd ⟨h.space, h.agent⟩ (agentMembershipOf_eq_none hfind h.mem)
    | some x =>
      obtain ⟨hx, hxspace, hxagent⟩ := agentMembershipOf_eq_some hfind
      rw [ht.agent_pair x hx m h.mem (hxspace.trans h.space.symm) (hxagent.trans h.agent.symm)]
  rw [requireAgentMembership, exec_view_bind, hfind, exec_require_bind_ok, exec_require_bind_ok, exec_view_bind,
    Keyed.get?_eq_some_iff.mpr ⟨h.sponsor, h.sponsor_id⟩, exec_require_bind_ok, exec_bind_ok]
  refine ⟨h.status, ?_, h.sponsor_version, x, σ, exec_requireMembership ht hx, ?_⟩
  · intro version hversion
    cases hversion
  · rw [exec_view_bind, exec_require_bind_ok]
    exact ⟨h.owned, rfl⟩

/-- In consistent tables the check of the owner returns if the agent is a member under that owner. -/
theorem returns_requireOwnedOrgAgent {t : Tables} (ht : Consistent t) {ownerId : UserId} :
    returns (requireOwnedOrgAgent spaceId ownerId agentId) t = true ↔
      ∃ m s, AgentMember t spaceId agentId m s ∧ s.userId = ownerId := by
  unfold returns
  constructor
  · intro hok
    cases hexec : exec (requireOwnedOrgAgent spaceId ownerId agentId) ⟨t, t⟩ with
    | mk answer τ =>
      cases answer with
      | error e =>
        rw [hexec] at hok
        cases hok
      | ok m =>
        obtain ⟨-, s, hs⟩ := requireOwnedOrgAgent_ok hexec
        exact ⟨m, s, hs⟩
  · rintro ⟨m, s, hs, howner⟩
    have hexec : exec (requireOwnedOrgAgent spaceId ownerId agentId) ⟨t, t⟩ = (.ok m, ⟨t, t⟩) := by
      rw [requireOwnedOrgAgent, exec_bind_ok]
      refine ⟨m, ⟨t, t⟩, exec_requireAgentMembership ht hs, ?_⟩
      rw [exec_view_bind, Keyed.get?_eq_some_iff.mpr ⟨hs.sponsor, hs.sponsor_id⟩, exec_require_bind_ok]
      exact ⟨howner, rfl⟩
    rw [hexec]
    rfl

end Returns

/-- The one who issued the grant is an enabled user, and the agent is still bound to it. -/
def IssuerStands (t : Tables) (g : AgentAccessGrant) : Prop :=
  (∃ u ∈ t.users, u.id = g.createdByUserId ∧ u.Enabled) ∧
    ∃ a ∈ t.agents, a.agentId = g.agentId ∧ a.userId = some g.createdByUserId
deriving Decidable

variable {t : Tables} {now : Instant} {g : AgentAccessGrant}

theorem agentMember_iff (ht : Consistent t) (hg : g ∈ t.grants) (hspace : ∃ s ∈ t.spaces, s.id = g.spaceId ∧ s.status = .active)
    (hmembership : ∃ m ∈ t.agentMemberships, m.id = g.agentMembershipId ∧ m.status = .active ∧
      m.version = g.agentMembershipVersion) :
    (∃ m s, AgentMember t g.spaceId g.agentId m s ∧ s.userId = g.createdByUserId) ↔
      (∃ a ∈ t.agents, a.agentId = g.agentId ∧ a.status = .active) ∧ IssuerStands t g := by
  constructor
  · rintro ⟨m, s, hs, hcreator⟩
    obtain ⟨⟨a, hget, hactive, -, hbound⟩, -⟩ := hs.owned
    obtain ⟨ha, haid⟩ := Keyed.get?_eq_some_iff.mp hget
    obtain ⟨x, hx⟩ := hs.member
    exact ⟨⟨a, ha, haid, hactive⟩, hcreator ▸ hx.enabled, a, ha, haid, hcreator ▸ hbound⟩
  · rintro ⟨⟨a, ha, haid, hactive⟩, henabled, b, hb, hbid, hbound⟩
    obtain rfl := Keyed.eq_of_key ha hb (haid.trans hbid.symm)
    obtain ⟨m, hm, hmid, hmactive, -⟩ := hmembership
    obtain ⟨m', hm', hmid', hmspace, hmagent, -⟩ := (ht.grant g hg).agent
    obtain rfl := Keyed.eq_of_key hm hm' (hmid.trans hmid'.symm)
    obtain ⟨s, hs, hsid, hsspace, hsactive, o, ho, hoagent, howner⟩ := (ht.agentMembership m hm).sponsor
    obtain ⟨o', ho', hoagent', howner'⟩ := (ht.grant g hg).owner
    obtain rfl := Keyed.eq_of_key ho ho' (hoagent.trans (hmagent.trans hoagent'.symm))
    have hcreator : s.userId = g.createdByUserId := Owner.user.inj (howner.symm.trans howner')
    obtain ⟨hstatus, hversion⟩ := hsactive (by rw [hmactive]; decide)
    refine ⟨m, s, ?_, hcreator⟩
    rw [← hcreator] at henabled hbound
    exact
      { mem := hm
        space := hmspace
        agent := hmagent
        status := hmactive
        sponsor := hs
        sponsor_id := hsid
        sponsor_version := hversion
        member := ⟨s, hs, hsspace.trans hmspace, rfl, hstatus, henabled, hspace⟩
        owned := ⟨⟨a, Keyed.get?_eq_some_iff.mpr ⟨ha, haid⟩, hactive, (ht.claimed a ha s.userId hbound).1, hbound⟩,
          o, Keyed.get?_eq_some_iff.mpr ⟨ho, hoagent'⟩, howner⟩ }

/-- The lifecycle check asks for an issuer that stands, besides what the graph asks for. -/
theorem legacyGrantIsValid_iff (ht : Consistent t) (hg : g ∈ t.grants) :
    legacyGrantIsValid t g now = true ↔ Alive t g now ∧ IssuerStands t g := by
  unfold legacyGrantIsValid
  simp only [Bool.and_eq_true, Option.isNone_iff_eq_none, Option.any_eq_true, Keyed.get?_eq_some_iff, decide_eq_true_eq,
    returns_requireOwnedOrgAgent ht, and_assoc]
  constructor
  · rintro ⟨hunrevoked, hunexpired, ⟨s, hs, hsid, -, hspace⟩, hgrantee, huser, hmembership, hreturns⟩
    obtain ⟨hagent, hissuer⟩ := (agentMember_iff ht hg ⟨s, hs, hsid, hspace⟩ hmembership).mp hreturns
    exact ⟨⟨hunrevoked, hunexpired, ⟨s, hs, hsid, hspace⟩, hgrantee, huser, hmembership, hagent⟩, hissuer⟩
  · rintro ⟨⟨hunrevoked, hunexpired, ⟨s, hs, hsid, hspace⟩, hgrantee, huser, hmembership, hagent⟩, hissuer⟩
    obtain ⟨s', hs', hsid', hkind⟩ := (ht.grant g hg).space
    obtain rfl := Keyed.eq_of_key hs hs' (hsid.trans hsid'.symm)
    exact ⟨hunrevoked, hunexpired, ⟨s, hs, hsid, hkind, hspace⟩, hgrantee, huser, hmembership,
      (agentMember_iff ht hg ⟨s, hs, hsid, hspace⟩ hmembership).mpr ⟨hagent, hissuer⟩⟩

/-- In every state that calls can reach, at a projection and at any time after it: the graph and the lifecycle check give one answer on a grant exactly if, should the grant be alive, its issuer stands. Asking about many grants at once is asking about each of them. -/
theorem graph_agrees_with_lifecycle {h : Hub} {time : Instant} (hreach : hub.Reachable Hub.Initial h) (htime : time ≤ now)
    (many one : Access.Session (h.graph.sync h.tables time).graph) :
    (∀ g ∈ h.tables.grants,
      (grantIsValid (h.graph.sync h.tables time) one g.id now = legacyGrantIsValid h.tables g now ↔
        (Alive h.tables g now → IssuerStands h.tables g))) ∧
      ∀ (grants : List AgentAccessGrant) id, id ∈ validGrantIds (h.graph.sync h.tables time) many grants now ↔
        id ∈ grants.map (·.id) ∧ grantIsValid (h.graph.sync h.tables time) one id now = true := by
  have ht := (Hub.Sound.reachable hreach).consistent
  have hmirrors := mirrors_sync (ht.projectable time) h.graph
  refine ⟨fun g hg => ?_, fun grants id => hmirrors.mem_validGrantIds many one grants⟩
  rw [Bool.eq_iff_iff, hmirrors.grantIsValid_iff ht htime one hg, legacyGrantIsValid_iff ht hg]
  exact ⟨fun hsame halive => (hsame.mp halive).2, fun hstands => ⟨fun halive => ⟨halive, hstands halive⟩, And.left⟩⟩

def admission : AdmissionIds :=
  { personal := { spaceId := 11, membershipId := 21 }, personalMembershipId := 31, membershipId := 32 }

/-- The owner of an agent founds an organization, brings the agent and another user into it and grants the user access. -/
def granting : List Action :=
  [.call 1 (.signUp 1 "1"), .call 1 (.signUp 2 "2"), .call 1 (.registerAgent "x" "clm_1"),
    .call 2 (.claimAgent 1 "ag_x" ""),
    .call 3 (.createOrganization 1 "acme"
      { spaceId := 12, organizationId := 1, membershipId := 22, hex := "1", personal := admission.personal }),
    .call 4 (.inviteUser 12 1 2 23), .call 5 (.acceptInvitation 12 2),
    .call 6 (.requestAgentAdmission 12 1 "ag_x" admission), .call 7 (.approveAgent 12 1 "ag_x"),
    .call 8 (.createGrant 12 1 { agentId := "ag_x", granteeUserId := 2, role := "consultant" } 1)]

def banning : List Action := granting ++ [.call 9 (.setUser 1 true (some 9))]

def unbinding : List Action := granting ++ [.call 9 (.unbindAgentFromUser "ag_x" 1 {} "clm_2")]

def Hub.lastGrant (actions : List Action) (check : Hub → AgentAccessGrant → Bool) : Bool :=
  (hub.run (start 0) actions).any fun h => h.tables.grants.rows.any (check h)

theorem exists_lastGrant {actions : List Action} {check : Hub → AgentAccessGrant → Bool}
    (h : Hub.lastGrant actions check = true) : ∃ s, hub.run (Hub.start 0) actions = some s ∧
      ∃ g ∈ s.tables.grants, check s g = true := by
  obtain ⟨s, hrun, hany⟩ := (Option.any_eq_true _ _).mp h
  obtain ⟨g, hg, hcheck⟩ := List.any_eq_true.mp hany
  exact ⟨s, hrun, g, hg, hcheck⟩

/-- While the issuer stands, both say that the grant is valid. -/
theorem graph_agrees_with_lifecycle_granted : ∃ h, hub.run (Hub.start 0) granting = some h ∧ ∃ g ∈ h.tables.grants,
    grantIsValid (h.graph.sync h.tables 9) (h.graph.sync h.tables 9).graph.inOrder g.id 10 = true ∧
      legacyGrantIsValid h.tables g 10 = true := by
  have hgranted : Hub.lastGrant granting (fun h g => IssuerStands h.tables g ∧ legacyGrantIsValid h.tables g 10) = true := by
    decide +kernel
  obtain ⟨h, hrun, g, hg, hstands⟩ := exists_lastGrant hgranted
  simp only [decide_eq_true_eq] at hstands
  obtain ⟨hagree, -⟩ := @graph_agrees_with_lifecycle 10 h 9 ⟨_, _, ⟨0, rfl⟩, hrun⟩ (by decide)
    (h.graph.sync h.tables 9).graph.inOrder (h.graph.sync h.tables 9).graph.inOrder
  exact ⟨h, hrun, g, hg, ((hagree g hg).mpr fun _ => hstands.1).trans hstands.2, hstands.2⟩

/-- A grant of a banned issuer and one on an agent its issuer has given up: the graph goes on to call them valid. -/
theorem graph_ignores_issuer :
    (∃ h, hub.run (Hub.start 0) banning = some h ∧ ∃ g ∈ h.tables.grants,
      grantIsValid (h.graph.sync h.tables 9) (h.graph.sync h.tables 9).graph.inOrder g.id 10 = true ∧
        legacyGrantIsValid h.tables g 10 = false) ∧
    ∃ h, hub.run (Hub.start 0) unbinding = some h ∧ ∃ g ∈ h.tables.grants,
      grantIsValid (h.graph.sync h.tables 9) (h.graph.sync h.tables 9).graph.inOrder g.id 10 = true ∧
        legacyGrantIsValid h.tables g 10 = false := by
  have hbanned : Hub.lastGrant banning (fun h g =>
      grantIsValid (h.graph.sync h.tables 9) (h.graph.sync h.tables 9).graph.inOrder g.id 10 = true ∧
        legacyGrantIsValid h.tables g 10 = false) = true := by decide +kernel
  have hunbound : Hub.lastGrant unbinding (fun h g =>
      grantIsValid (h.graph.sync h.tables 9) (h.graph.sync h.tables 9).graph.inOrder g.id 10 = true ∧
        legacyGrantIsValid h.tables g 10 = false) = true := by decide +kernel
  obtain ⟨h, hrun, g, hg, hdiffer⟩ := exists_lastGrant hbanned
  obtain ⟨h', hrun', g', hg', hdiffer'⟩ := exists_lastGrant hunbound
  rw [decide_eq_true_eq] at hdiffer hdiffer'
  exact ⟨⟨h, hrun, g, hg, hdiffer⟩, h', hrun', g', hg', hdiffer'⟩

end BotCord.Spaces

/-!
## Withdrawn access stays withdrawn

A grant records the versions of the memberships it rests on. A membership that leaves the active status has got a version above the recorded one, since the recorded one belongs to an active membership, and versions only grow. So a grant that has been revoked, has expired or has lost one of its memberships is dead in every later state, whoever is admitted again.
-/

namespace BotCord.Spaces

open Tables

/-- What takes a grant's access away. -/
inductive Withdrawn (h : Hub) (g : AgentAccessGrant) : Prop
  | revoked (hrevoked : g.revokedAt ≠ none)
  | expired {expiry : Instant} (hexpiry : g.expiresAt = some expiry) (hpast : expiry ≤ h.clock)
  | grantee {m : UserMembership} (hm : m ∈ h.tables.userMemberships) (hid : m.id = g.granteeMembershipId)
      (hstatus : m.status ≠ .active)
  | agent {m : AgentMembership} (hm : m ∈ h.tables.agentMemberships) (hid : m.id = g.agentMembershipId)
      (hstatus : m.status ≠ .active)
  | sponsor {m : AgentMembership} {s : UserMembership} (hm : m ∈ h.tables.agentMemberships)
      (hid : m.id = g.agentMembershipId) (hs : s ∈ h.tables.userMemberships) (hsid : s.id = m.sponsorUserMembershipId)
      (hstatus : s.status ≠ .active)

inductive Dead (t : Tables) (now : Instant) (g : AgentAccessGrant) : Prop
  | revoked (hrevoked : g.revokedAt ≠ none)
  | expired {expiry : Instant} (hexpiry : g.expiresAt = some expiry) (hpast : expiry ≤ now)
  | grantee {m : UserMembership} (hm : m ∈ t.userMemberships) (hid : m.id = g.granteeMembershipId)
      (hversion : g.granteeMembershipVersion < m.version)
  | agent {m : AgentMembership} (hm : m ∈ t.agentMemberships) (hid : m.id = g.agentMembershipId)
      (hversion : g.agentMembershipVersion < m.version)

variable {t t' : Tables} {now now' : Instant} {g : AgentAccessGrant}

theorem dead_of_grantee (ht : Consistent t) (hg : g ∈ t.grants) {m : UserMembership} (hm : m ∈ t.userMemberships)
    (hid : m.id = g.granteeMembershipId) (hstatus : m.status ≠ .active) : Dead t now g := by
  obtain ⟨m', hm', hid', -, -, hle, hactive⟩ := (ht.grant g hg).grantee
  obtain rfl := Keyed.eq_of_key hm hm' (hid.trans hid'.symm)
  refine .grantee hm hid (lt_of_le_of_ne hle fun hsame => ?_)
  exact hstatus (hactive hsame.symm)

theorem dead_of_agent (ht : Consistent t) (hg : g ∈ t.grants) {m : AgentMembership} (hm : m ∈ t.agentMemberships)
    (hid : m.id = g.agentMembershipId) (hstatus : m.status ≠ .active) : Dead t now g := by
  obtain ⟨m', hm', hid', -, -, hle, hactive⟩ := (ht.grant g hg).agent
  obtain rfl := Keyed.eq_of_key hm hm' (hid.trans hid'.symm)
  refine .agent hm hid (lt_of_le_of_ne hle fun hsame => ?_)
  exact hstatus (hactive hsame.symm)

theorem Withdrawn.dead {h : Hub} (hw : Withdrawn h g) (ht : Consistent h.tables) (hg : g ∈ h.tables.grants) :
    Dead h.tables h.clock g := by
  cases hw with
  | revoked hrevoked => exact .revoked hrevoked
  | expired hexpiry hpast => exact .expired hexpiry hpast
  | grantee hm hid hstatus => exact dead_of_grantee ht hg hm hid hstatus
  | agent hm hid hstatus => exact dead_of_agent ht hg hm hid hstatus
  | @sponsor m s hm hid hs hsid hstatus =>
    -- the membership of the agent has ended with that of its sponsor
    refine dead_of_agent ht hg hm hid fun hactive => hstatus ?_
    exact ht.sponsor_active hm hs hsid (by rw [hactive]; decide)

theorem Dead.grows (hd : Dead t now g) (hgrows : Grows t t') (hle : now ≤ now') {g' : AgentAccessGrant}
    (hsame : g' = { g with revokedAt := g'.revokedAt }) (hrevoked : g.revokedAt ≠ none → g'.revokedAt ≠ none) :
    Dead t' now' g' := by
  cases hd with
  | revoked h => exact .revoked (hrevoked h)
  | expired hexpiry hpast =>
    refine .expired ?_ (hpast.trans hle)
    rw [hsame]
    exact hexpiry
  | grantee hm hid hversion =>
    obtain ⟨m', hm', hid', -, -, hmoved⟩ := hgrows.userMemberships _ hm
    rw [hsame]
    refine .grantee hm' (hid'.trans hid) ?_
    rcases hmoved with rfl | hlt
    · exact hversion
    · exact hversion.trans hlt
  | agent hm hid hversion =>
    obtain ⟨m', hm', hid', -, -, hmoved⟩ := hgrows.agentMemberships _ hm
    rw [hsame]
    refine .agent hm' (hid'.trans hid) ?_
    rcases hmoved with rfl | hlt
    · exact hversion
    · exact hversion.trans hlt

theorem Dead.not_alive (hd : Dead t now g) (hle : now ≤ now') : ¬ Alive t g now' := by
  intro halive
  cases hd with
  | revoked h => exact h halive.unrevoked
  | expired hexpiry hpast =>
    have hunexpired := halive.unexpired
    rw [hexpiry, Option.all_some, decide_eq_true_eq] at hunexpired
    exact absurd (hpast.trans hle) (not_le.mpr hunexpired)
  | grantee hm hid hversion =>
    obtain ⟨m, hm', hid', -, hsame⟩ := halive.grantee
    obtain rfl := Keyed.eq_of_key hm hm' (hid.trans hid'.symm)
    exact absurd hsame hversion.ne'
  | agent hm hid hversion =>
    obtain ⟨m, hm', hid', -, hsame⟩ := halive.membership
    obtain rfl := Keyed.eq_of_key hm hm' (hid.trans hid'.symm)
    exact absurd hsame hversion.ne'

/-- Once access has been withdrawn, the grant is not valid then or in any state after it. -/
theorem withdrawn_stays_withdrawn {h h' : Hub} {actions : List Action} (hreach : hub.Reachable Hub.Initial h)
    (hg : g ∈ h.tables.grants) (hw : Withdrawn h g) (hrun : hub.run h actions = some h') (hnow : h'.clock ≤ now)
    (db : Access.Session h'.graph.graph) : grantIsValid h'.graph db g.id now = false := by
  have hsound := Hub.Sound.reachable hreach
  have hsound' := hsound.run hrun
  obtain ⟨hclock, hgrows⟩ := run_grows hrun
  obtain ⟨g', hg', hsame, hrevoked⟩ := hgrows.grants g hg
  obtain ⟨time, htime, hmirrors⟩ := hsound'.mirrors
  have hdead := (hw.dead hsound.consistent hg).grows hgrows hclock hsame hrevoked
  have hid : g'.id = g.id := by rw [hsame]
  rw [← hid, ← Bool.not_eq_true, hmirrors.grantIsValid_iff hsound'.consistent (htime.trans hnow) db hg']
  exact hdead.not_alive hnow

/-- The grantee is removed, and comes back. -/
def comingBack : List Action := [.call 10 (.inviteUser 12 1 2 24), .call 11 (.acceptInvitation 12 2)]

theorem withdrawn_stays_withdrawn_back : ∃ h h', hub.run (Hub.start 0) (granting ++ [.call 9 (.removeUser 12 1 2)]) = some h ∧
    hub.run h comingBack = some h' ∧ ∃ g ∈ h.tables.grants,
      (∃ m ∈ h'.tables.userMemberships, m.id = g.granteeMembershipId ∧ m.status = .active) ∧
        grantIsValid h'.graph h'.graph.graph.inOrder g.id 12 = false := by
  have hremoved : Hub.lastGrant (granting ++ [.call 9 (.removeUser 12 1 2)]) (fun h g =>
      (∃ m ∈ h.tables.userMemberships, m.id = g.granteeMembershipId ∧ m.status ≠ .active) ∧
        (hub.run h comingBack).any fun h' => h'.clock ≤ 12 ∧
          ∃ m ∈ h'.tables.userMemberships, m.id = g.granteeMembershipId ∧ m.status = .active) = true := by
    decide +kernel
  obtain ⟨h, hrun, g, hg, hcheck⟩ := exists_lastGrant hremoved
  simp only [decide_eq_true_eq, Option.any_eq_true] at hcheck
  obtain ⟨⟨m, hm, hid, hstatus⟩, h', hrun', hnow, hback⟩ := hcheck
  exact ⟨h, h', hrun, hrun', g, hg, hback,
    withdrawn_stays_withdrawn ⟨_, _, ⟨0, rfl⟩, hrun⟩ hg (.grantee hm hid hstatus) hrun' hnow _⟩

/-- In every state that is reached, a key has one open edge of the projected kinds. -/
theorem open_edges_unique {h : Hub} (hreach : hub.Reachable Hub.Initial h) {r r' : EdgeRow} (hr : r ∈ h.graph.rows)
    (hr' : r' ∈ h.graph.rows) (hkind : WriteThrough r.fields.kind) (hopen : r.fields.Open) (hopen' : r'.fields.Open)
    (hkey : r.fields.key = r'.fields.key) : r = r' := by
  have hsound := Hub.Sound.reachable hreach
  obtain ⟨time, -, hmirrors⟩ := hsound.mirrors
  obtain ⟨e, he, hsettled⟩ := hmirrors.settled hr hkind hopen
  have hsame : r.fields.kind = r'.fields.kind := congrArg Prod.fst hkey
  obtain ⟨e', he', hsettled'⟩ := hmirrors.settled hr' (hsame ▸ hkind) hopen'
  rw [hsettled.fields] at hopen hkey
  rw [hsettled'.fields] at hopen' hkey
  obtain rfl := hsound.consistent.eq_of_key_eq he he' hopen hopen' hkey
  exact Keyed.eq_of_key hr hr' (hsettled.source.trans hsettled'.source.symm)

theorem open_edges_unique_granted : ∃ h, hub.run (Hub.start 0) granting = some h ∧
    (∃ r ∈ h.graph.rows, WriteThrough r.fields.kind ∧ r.fields.Open) ∧ ∀ r ∈ h.graph.rows, ∀ r' ∈ h.graph.rows,
      WriteThrough r.fields.kind → r.fields.Open → r'.fields.Open → r.fields.key = r'.fields.key → r = r' := by
  have hrun : (hub.run (Hub.start 0) granting).any (fun h => ∃ r ∈ h.graph.rows, WriteThrough r.fields.kind ∧ r.fields.Open) =
      true := by decide +kernel
  obtain ⟨h, hrun, hedge⟩ := (Option.any_eq_true _ _).mp hrun
  exact ⟨h, hrun, of_decide_eq_true hedge, fun r hr r' hr' => open_edges_unique ⟨_, _, ⟨0, rfl⟩, hrun⟩ hr hr'⟩

/-- In every state that is reached, an agent that has not been removed from a space has a sponsor that owns it and is an active member there. -/
theorem members_sponsored {h : Hub} (hreach : hub.Reachable Hub.Initial h) :
    (∀ m ∈ h.tables.agentMemberships, Sponsored h.tables m) ∧
      ∀ g ∈ h.tables.grants, Granted h.tables g ∧ ∀ g' ∈ h.tables.grants, SamePair g g' → g.revokedAt = none →
        g'.revokedAt = none → g = g' := by
  have ht := (Hub.Sound.reachable hreach).consistent
  exact ⟨ht.agentMembership, fun g hg => ⟨ht.grant g hg, ht.one_live g hg⟩⟩

theorem members_sponsored_granted : ∃ h, hub.run (Hub.start 0) granting = some h ∧ ∃ g ∈ h.tables.grants,
    Granted h.tables g := by
  obtain ⟨h, hrun, g, hg, -⟩ := exists_lastGrant (by decide +kernel : Hub.lastGrant granting (fun _ _ => true) = true)
  exact ⟨h, hrun, g, hg, ((members_sponsored ⟨_, _, ⟨0, rfl⟩, hrun⟩).2 g hg).1⟩

end BotCord.Spaces
