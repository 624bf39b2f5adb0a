import BotCord.Spaces.Binding
import BotCord.Spaces.Consistent

/-!
# What the calls do to the tables

One constructor for each thing that a call can do to the tables, with what the call has checked before. Every call that returns has done some of these, one after another, or has taken an agent from its user; invariants of the tables are proved of the constructors, and the calls are not opened again.
-/

namespace BotCord.Spaces

open Tables Transaction

inductive Change (now : Instant) (t : Tables) : Tables → Prop
  | signUp {u users} (hadds : t.users.Adds u users) (hhuman : StartsWith 'h' u.humanId)
      (hnew : ∀ x ∈ t.users, x.humanId ≠ u.humanId) (hhuman : u.humanId.startsWith "hu_" = true) :
      Change now t { t with users }
  | users {p} [DecidablePred p] {f hf} (hhuman : ∀ u, (f u).humanId = u.humanId) :
      Change now t { t with users := t.users.modify p f hf }
  | agent {a agents} (hadds : t.agents.Adds a agents) (hagent : StartsWith 'a' a.agentId) (hbound : Claimed t a) :
      Change now t { t with agents }
  | bind {a : Agent} {u : User} (ha : a ∈ t.agents) (hfree : a.userId = none) (hu : u ∈ t.users) :
      Change now t (t.bind a.agentId u.id now)
  | agentStatus {agentId status} :
      Change now t { t with agents := t.agents.modify (·.agentId = agentId) fun a => { a with status } }
  | own {a : Agent} {u : User} {ownerships} (ha : a ∈ t.agents) (hu : u ∈ t.users) (hbound : a.userId = some u.id)
      (hadds : t.ownerships.Adds { agentId := a.agentId, owner := .user u.id } ownerships) :
      Change now t { t with ownerships }
  | personalSpace {s spaces personalSpaces} (hadds : t.spaces.Adds s spaces) (hkind : s.kind = .personal) :
      Change now t { t with spaces, personalSpaces }
  | organization {s spaces o organizations} (hspaces : t.spaces.Adds s spaces) (hadds : t.organizations.Adds o organizations)
      (hspace : o.spaceId = s.id) (hprincipal : StartsWith 'o' o.principalId)
      (hnew : ∀ x ∈ t.organizations, x.spaceId ≠ o.spaceId ∧ x.principalId ≠ o.principalId) :
      Change now t { t with spaces, organizations }
  | spaceStatus {id status} : Change now t { t with spaces := t.spaces.modify (·.id = id) fun s => { s with status } }
  | roles {roleBindings} : Change now t { t with roleBindings }
  | links {inviteLinks} : Change now t { t with inviteLinks }
  | joinUser {m userMemberships} (hadds : t.userMemberships.Adds m userMemberships)
      (hpair : ∀ x ∈ t.userMemberships, ¬ (x.spaceId = m.spaceId ∧ x.userId = m.userId)) (hversion : m.version = 1)
      (huser : ∃ u ∈ t.users, u.id = m.userId) : Change now t { t with userMemberships }
  | moveUser {m : UserMembership} {status} (hm : m ∈ t.userMemberships) (hstatus : m.status ≠ .active) :
      Change now t (t.moveUser m.id status)
  | dropUser {m : UserMembership} (hm : m ∈ t.userMemberships) :
      Change now t ((t.moveUser m.id .removed).moveAgents (SponsoredBy m.id) .removed)
  | joinAgent {m agentMemberships} {s : UserMembership} (hadds : t.agentMemberships.Adds m agentMemberships)
      (hpair : ∀ x ∈ t.agentMemberships, ¬ (x.spaceId = m.spaceId ∧ x.agentId = m.agentId)) (hversion : m.version = 1)
      (hs : s ∈ t.userMemberships) (hid : s.id = m.sponsorUserMembershipId) (hspace : s.spaceId = m.spaceId)
      (hactive : s.status = .active) (hsponsored : s.version = m.sponsorVersion)
      (howner : ∃ o ∈ t.ownerships, o.agentId = m.agentId ∧ o.owner = .user s.userId) :
      Change now t { t with agentMemberships }
  | askAgain {m : AgentMembership} {s : UserMembership} (hm : m ∈ t.agentMemberships) (hstatus : m.status ≠ .active)
      (hs : s ∈ t.userMemberships) (hspace : s.spaceId = m.spaceId) (hactive : s.status = .active)
      (howner : ∃ o ∈ t.ownerships, o.agentId = m.agentId ∧ o.owner = .user s.userId) :
      Change now t (t.askAgain m.id s)
  | approve {m : AgentMembership} (hm : m ∈ t.agentMemberships) (hstatus : m.status = .invited) :
      Change now t (t.moveAgents (·.id = m.id) .active)
  | removeAgent {m : AgentMembership} (hm : m ∈ t.agentMemberships) :
      Change now t (t.moveAgents (·.id = m.id) .removed)
  | grant {g : AgentAccessGrant} {am : AgentMembership} {um : UserMembership} {grants} (ham : am ∈ t.agentMemberships)
      (hactive : am.status = .active) (hagent : g.agentMembershipId = am.id ∧ g.spaceId = am.spaceId ∧
        g.agentId = am.agentId ∧ g.agentMembershipVersion = am.version)
      (hum : um ∈ t.userMemberships) (hactive' : um.status = .active)
      (hgrantee : g.granteeMembershipId = um.id ∧ g.spaceId = um.spaceId ∧ g.granteeUserId = um.userId ∧
        g.granteeMembershipVersion = um.version)
      (howner : ∃ o ∈ t.ownerships, o.agentId = g.agentId ∧ o.owner = .user g.createdByUserId)
      (hspace : ∃ s ∈ t.spaces, s.id = g.spaceId ∧ s.kind = .organization)
      (hadds : (t.revokeGrants (Replaces g) now).grants.Adds g grants) (hother : g.granteeUserId ≠ g.createdByUserId) :
      Change now t { t.revokeGrants (Replaces g) now with grants }
  | revoke {p} [DecidablePred p] : Change now t (t.revokeGrants p now)

abbrev Changes (now : Instant) : Tables → Tables → Prop := Relation.ReflTransGen (Change now)

section Inserts

variable {σ τ : Session Tables} {u : Unit}

theorem insertRow_ok {ρ κ : Type} [DecidableEq κ] {key : ρ → κ} {get : Tables → Keyed key}
    {set : Keyed key → Tables → Tables} {r : ρ} (h : exec (insertRow get set r) σ = (.ok u, τ)) :
    ∃ rows, (get σ.view).Adds r rows ∧ τ = { σ with view := set rows σ.view } := by
  rw [insertRow, exec_view_bind] at h
  cases hinsert : (get σ.view).insert? r with
  | none =>
    rw [hinsert, exec_throw] at h
    cases h
  | some rows =>
    rw [hinsert, exec_modifyView, Prod.mk.injEq] at h
    exact ⟨rows, Keyed.insert?_eq_some hinsert, h.2.symm⟩

theorem insertUserMembership_ok {m : UserMembership} (h : exec (insertUserMembership m) σ = (.ok u, τ)) :
    ∃ userMemberships, σ.view.userMemberships.Adds m userMemberships ∧
      (∀ x ∈ σ.view.userMemberships, ¬ (x.spaceId = m.spaceId ∧ x.userId = m.userId)) ∧
      τ = { σ with view := { σ.view with userMemberships } } := by
  rw [insertUserMembership, exec_view_bind, exec_require_bind_ok] at h
  obtain ⟨hpair, h⟩ := h
  obtain ⟨rows, hadds, rfl⟩ := insertRow_ok h
  exact ⟨rows, hadds, hpair, rfl⟩

theorem insertAgentMembership_ok {m : AgentMembership} (h : exec (insertAgentMembership m) σ = (.ok u, τ)) :
    ∃ agentMemberships, σ.view.agentMemberships.Adds m agentMemberships ∧
      (∀ x ∈ σ.view.agentMemberships, ¬ (x.spaceId = m.spaceId ∧ x.agentId = m.agentId)) ∧
      τ = { σ with view := { σ.view with agentMemberships } } := by
  rw [insertAgentMembership, exec_view_bind, exec_require_bind_ok] at h
  obtain ⟨hpair, h⟩ := h
  obtain ⟨rows, hadds, rfl⟩ := insertRow_ok h
  exact ⟨rows, hadds, hpair, rfl⟩

end Inserts

/-! ### Checks -/

section Checks

theorem read_bind {α β : Type} {x : Tx α} {f : α → Tx β} {σ τ : Session Tables} {b : β} {P : α → Prop}
    (hx : ∀ {a μ}, exec x σ = (.ok a, μ) → μ = σ ∧ P a) (h : exec (x >>= f) σ = (.ok b, τ)) :
    ∃ a, P a ∧ exec (f a) σ = (.ok b, τ) := by
  obtain ⟨a, μ, ha, hrest⟩ := exec_bind_ok.mp h
  obtain ⟨rfl, hp⟩ := hx ha
  exact ⟨a, hp, hrest⟩

theorem onlyIf_ok {p : Prop} [Decidable p] {x : Tx Unit} {σ τ : Session Tables} {u : Unit}
    (h : exec (onlyIf p x) σ = (.ok u, τ)) : (p ∧ exec x σ = (.ok u, τ)) ∨ (¬ p ∧ τ = σ) := by
  unfold onlyIf at h
  split at h
  · exact .inl ⟨‹p›, h⟩
  · exact .inr ⟨‹¬ p›, (exec_pure_ok.mp h).2.symm⟩

variable {σ τ : Session Tables} {spaceId : SpaceId} {userId : UserId} {agentId : AgentId}

theorem activeUser_ok {u : User} (h : exec (activeUser userId) σ = (.ok u, τ)) :
    τ = σ ∧ u ∈ σ.view.users ∧ u.id = userId ∧ u.Enabled := by
  rw [activeUser, exec_view_bind] at h
  cases hget : σ.view.users.get? userId with
  | none =>
    rw [hget, exec_throw] at h
    cases h
  | some user =>
    rw [hget, exec_require_bind_ok] at h
    obtain ⟨henabled, h⟩ := h
    obtain ⟨rfl, rfl⟩ := exec_pure_ok.mp h
    obtain ⟨hmem, hid⟩ := Keyed.get?_eq_some_iff.mp hget
    exact ⟨rfl, hmem, hid, henabled⟩

theorem organizationSpace_ok {u : Unit} (h : exec (organizationSpace spaceId) σ = (.ok u, τ)) :
    τ = σ ∧ ∃ s ∈ σ.view.spaces, s.id = spaceId ∧ s.kind = .organization ∧ s.status = .active := by
  rw [organizationSpace, exec_view_bind] at h
  cases hget : σ.view.spaces.get? spaceId with
  | none =>
    rw [hget, exec_throw] at h
    cases h
  | some s =>
    rw [hget] at h
    obtain ⟨⟨hkind, hstatus⟩, rfl⟩ := exec_require_ok.mp h
    obtain ⟨hmem, hid⟩ := Keyed.get?_eq_some_iff.mp hget
    exact ⟨rfl, s, hmem, hid, hkind, hstatus⟩

structure Member (t : Tables) (spaceId : SpaceId) (userId : UserId) (m : UserMembership) : Prop where
  mem : m ∈ t.userMemberships
  space : m.spaceId = spaceId
  user : m.userId = userId
  status : m.status = .active
  enabled : ∃ u ∈ t.users, u.id = userId ∧ u.Enabled
  open_ : ∃ s ∈ t.spaces, s.id = spaceId ∧ s.status = .active

theorem requireMembership_ok {m : UserMembership} (h : exec (requireMembership spaceId userId) σ = (.ok m, τ)) :
    τ = σ ∧ Member σ.view spaceId userId m := by
  rw [requireMembership, exec_bind_ok] at h
  obtain ⟨user, mid, huser, h⟩ := h
  obtain ⟨rfl, hmem, hid, henabled⟩ := activeUser_ok huser
  rw [exec_view_bind] at h
  cases hfind : mid.view.membershipOf spaceId userId with
  | none =>
    simp only [hfind, exec_throw, Prod.mk.injEq, reduceCtorEq, false_and] at h
  | some membership =>
    cases hget : mid.view.spaces.get? spaceId with
    | none => simp only [hfind, hget, exec_throw, Prod.mk.injEq, reduceCtorEq, false_and] at h
    | some s =>
      simp only [hfind, hget] at h
      rw [exec_require_bind_ok] at h
      obtain ⟨⟨hspace, hstatus⟩, h⟩ := h
      obtain ⟨rfl, rfl⟩ := exec_pure_ok.mp h
      obtain ⟨hmembership, hspaceId, huserId⟩ := membershipOf_eq_some hfind
      obtain ⟨hs, hsid⟩ := Keyed.get?_eq_some_iff.mp hget
      exact ⟨rfl, hmembership, hspaceId, huserId, hstatus, ⟨user, hmem, hid, henabled⟩, ⟨s, hs, hsid, hspace⟩⟩

theorem requireManager_ok {ownerOnly : Bool} {m : UserMembership}
    (h : exec (requireManager spaceId userId ownerOnly) σ = (.ok m, τ)) : τ = σ ∧ Member σ.view spaceId userId m := by
  rw [requireManager, exec_bind_ok] at h
  obtain ⟨membership, mid, hmember, h⟩ := h
  obtain ⟨rfl, hmember⟩ := requireMembership_ok hmember
  rw [exec_view_bind, exec_require_bind_ok] at h
  obtain ⟨-, h⟩ := h
  obtain ⟨rfl, rfl⟩ := exec_pure_ok.mp h
  exact ⟨rfl, hmember⟩

/-- An active membership of an agent under a sponsor that is still what it was, and whose agent it is. -/
structure AgentMember (t : Tables) (spaceId : SpaceId) (agentId : AgentId) (m : AgentMembership) (s : UserMembership) :
    Prop where
  mem : m ∈ t.agentMemberships
  space : m.spaceId = spaceId
  agent : m.agentId = agentId
  status : m.status = .active
  sponsor : s ∈ t.userMemberships
  sponsor_id : s.id = m.sponsorUserMembershipId
  sponsor_version : s.version = m.sponsorVersion
  member : ∃ x, Member t spaceId s.userId x
  owned : OwnedAgent t agentId s.userId

theorem requireAgentMembership_ok {expectedVersion : Option ℕ} {m : AgentMembership}
    (h : exec (requireAgentMembership spaceId agentId expectedVersion) σ = (.ok m, τ)) :
    τ = σ ∧ ∃ s, AgentMember σ.view spaceId agentId m s := by
  rw [requireAgentMembership, exec_view_bind] at h
  cases hfind : σ.view.agentMembershipOf spaceId agentId with
  | none =>
    rw [hfind, exec_throw] at h
    cases h
  | some membership =>
    rw [hfind, exec_require_bind_ok, exec_require_bind_ok, exec_view_bind] at h
    obtain ⟨hstatus, -, h⟩ := h
    cases hget : σ.view.userMemberships.get? membership.sponsorUserMembershipId with
    | none =>
      rw [hget, exec_throw] at h
      cases h
    | some sponsor =>
      rw [hget, exec_require_bind_ok, exec_bind_ok] at h
      obtain ⟨hversion, member, mid, hmember, h⟩ := h
      obtain ⟨rfl, hmember⟩ := requireMembership_ok hmember
      rw [exec_view_bind, exec_require_bind_ok] at h
      obtain ⟨howned, h⟩ := h
      obtain ⟨rfl, rfl⟩ := exec_pure_ok.mp h
      obtain ⟨hmem, hspace, hagent⟩ := agentMembershipOf_eq_some hfind
      obtain ⟨hsponsor, hid⟩ := Keyed.get?_eq_some_iff.mp hget
      exact ⟨rfl, sponsor, hmem, hspace, hagent, hstatus, hsponsor, hid, hversion, ⟨member, hmember⟩, howned⟩

theorem requireOwnedOrgAgent_ok {ownerId : UserId} {m : AgentMembership}
    (h : exec (requireOwnedOrgAgent spaceId ownerId agentId) σ = (.ok m, τ)) :
    τ = σ ∧ ∃ s, AgentMember σ.view spaceId agentId m s ∧ s.userId = ownerId := by
  rw [requireOwnedOrgAgent, exec_bind_ok] at h
  obtain ⟨membership, mid, hmembership, h⟩ := h
  obtain ⟨rfl, s, hs⟩ := requireAgentMembership_ok hmembership
  rw [exec_view_bind, Keyed.get?_eq_some_iff.mpr ⟨hs.sponsor, hs.sponsor_id⟩, exec_require_bind_ok] at h
  obtain ⟨howner, h⟩ := h
  obtain ⟨rfl, rfl⟩ := exec_pure_ok.mp h
  exact ⟨rfl, s, hs, howner⟩

end Checks

/-! ### Spaces and members -/

namespace Changes

variable {now : Instant} {t t' : Tables}

theorem single (h : Change now t t') : Changes now t t' := .tail .refl h

theorem roles (h : Changes now t t') {roleBindings : List RoleBinding} : Changes now t { t' with roleBindings } :=
  h.tail .roles

end Changes

section Members

variable {now : Instant} {σ τ : Session Tables} {spaceId : SpaceId} {userId actorId targetId : UserId} {agentId : AgentId}
  {id : MembershipId} {u : Unit}

variable (now) in
theorem ensurePersonalSpace_ok {ids : PersonalIds} {personal : SpaceId}
    (h : exec (ensurePersonalSpace userId ids) σ = (.ok personal, τ)) :
    Changes now σ.view τ.view ∧ (∀ m ∈ σ.view.userMemberships, m ∈ τ.view.userMemberships) ∧
      ∃ u ∈ τ.view.users, u.id = userId := by
  rw [ensurePersonalSpace, exec_bind_ok] at h
  obtain ⟨user, mid, huser, h⟩ := h
  obtain ⟨rfl, hmem, hid, -⟩ := activeUser_ok huser
  rw [exec_view_bind] at h
  cases hfind : mid.view.personalSpaceOf userId with
  | some found =>
    rw [hfind] at h
    obtain ⟨rfl, rfl⟩ := exec_pure_ok.mp h
    exact ⟨.refl, fun _ hm => hm, user, hmem, hid⟩
  | none =>
    simp only [hfind, exec_bind_ok] at h
    obtain ⟨_, _, hspace, _, _, hpersonal, _, _, hmembership, _, _, hrole, h⟩ := h
    obtain ⟨spaces, hspaces, rfl⟩ := insertRow_ok hspace
    rw [insertPersonalSpace, exec_view_bind, exec_require_bind_ok] at hpersonal
    obtain ⟨personalSpaces, -, rfl⟩ := insertRow_ok hpersonal.2
    obtain ⟨userMemberships, hadds, hpair, rfl⟩ := insertUserMembership_ok hmembership
    rw [exec_modifyView, Prod.mk.injEq] at hrole
    obtain ⟨-, rfl⟩ := hrole
    obtain ⟨rfl, rfl⟩ := exec_pure_ok.mp h
    have hjoin : Changes now mid.view { mid.view with spaces, personalSpaces, userMemberships } :=
      .tail (.single (.personalSpace hspaces rfl)) (.joinUser hadds hpair rfl ⟨user, hmem, hid⟩)
    exact ⟨hjoin.roles, fun m hm => hadds.mem_iff.mpr (.inl hm), user, hmem, hid⟩

theorem createOrganization_changes {slug : String} {ids : OrganizationIds}
    (h : exec (createOrganization userId slug ids) σ = (.ok u, τ)) : Changes now σ.view τ.view := by
  simp only [createOrganization, exec_bind_ok] at h
  obtain ⟨_, mid, hpersonal, _, _, hspace, _, _, horg, _, _, hmembership, hrole⟩ := h
  obtain ⟨hchanges, -, user, hmem, hid⟩ := ensurePersonalSpace_ok now hpersonal
  obtain ⟨spaces, hspaces, rfl⟩ := insertRow_ok hspace
  rw [insertOrganization, exec_view_bind, exec_require_bind_ok] at horg
  obtain ⟨hnew, horg⟩ := horg
  obtain ⟨organizations, horgs, rfl⟩ := insertRow_ok horg
  obtain ⟨userMemberships, hadds, hpair, rfl⟩ := insertUserMembership_ok hmembership
  rw [exec_modifyView, Prod.mk.injEq] at hrole
  obtain ⟨-, rfl⟩ := hrole
  have hcreated : Changes now mid.view { mid.view with spaces, organizations } := by
    refine .single (.organization hspaces horgs rfl ?_ fun x hx => ⟨(hnew x hx).1, (hnew x hx).2.2⟩)
    rw [StartsWith, String.toList_append]
    rfl
  exact Changes.roles ((hchanges.trans hcreated).tail (.joinUser hadds hpair rfl ⟨user, hmem, hid⟩))

theorem inviteUser_changes {answer : MembershipId} (h : exec (inviteUser spaceId actorId targetId id) σ = (.ok answer, τ)) :
    Changes now σ.view τ.view := by
  obtain ⟨_, -, h⟩ := read_bind organizationSpace_ok h
  obtain ⟨_, -, h⟩ := read_bind requireManager_ok h
  obtain ⟨user, ⟨hmem, hid, -⟩, h⟩ := read_bind activeUser_ok h
  rw [exec_view_bind] at h
  cases hfind : σ.view.membershipOf spaceId targetId with
  | none =>
    simp only [hfind, exec_bind_ok] at h
    obtain ⟨_, _, hinsert, h⟩ := h
    obtain ⟨userMemberships, hadds, hpair, rfl⟩ := insertUserMembership_ok hinsert
    obtain ⟨-, rfl⟩ := exec_pure_ok.mp h
    exact .single (.joinUser hadds hpair rfl ⟨user, hmem, hid⟩)
  | some membership =>
    simp only [hfind] at h
    split at h
    · obtain ⟨-, rfl⟩ := exec_pure_ok.mp h
      exact .refl
    · rename_i hstatus
      rw [exec_modifyView_bind] at h
      obtain ⟨-, rfl⟩ := exec_pure_ok.mp h
      have hmoved : Changes now σ.view (σ.view.moveUser membership.id .invited) :=
        .single (.moveUser (membershipOf_eq_some hfind).1 fun hactive => hstatus (.inl hactive))
      exact hmoved.roles

theorem acceptInvitation_changes {answer : MembershipId}
    (h : exec (acceptInvitation spaceId userId) σ = (.ok answer, τ)) : Changes now σ.view τ.view := by
  obtain ⟨_, -, h⟩ := read_bind organizationSpace_ok h
  obtain ⟨_, -, h⟩ := read_bind activeUser_ok h
  rw [exec_view_bind] at h
  cases hfind : σ.view.membershipOf spaceId userId with
  | none => simp [hfind] at h
  | some membership =>
    simp only [hfind] at h
    rw [exec_require_bind_ok] at h
    obtain ⟨-, h⟩ := h
    split at h
    · obtain ⟨-, rfl⟩ := exec_pure_ok.mp h
      exact .refl
    · rename_i hstatus
      rw [exec_modifyView_bind] at h
      obtain ⟨-, rfl⟩ := exec_pure_ok.mp h
      have hmoved : Changes now σ.view (σ.view.moveUser membership.id .active) :=
        .single (.moveUser (membershipOf_eq_some hfind).1 hstatus)
      exact hmoved.roles

theorem requireRemover_ok (h : exec (requireRemover spaceId actorId targetId) σ = (.ok u, τ)) : τ = σ ∧ True := by
  unfold requireRemover at h
  split at h
  · obtain ⟨_, h⟩ := exec_void_ok.mp h
    exact ⟨(requireMembership_ok h).1, trivial⟩
  · obtain ⟨_, h⟩ := exec_void_ok.mp h
    exact ⟨(requireManager_ok h).1, trivial⟩

theorem onlyIf_requireManager_ok {p : Prop} [Decidable p] {ownerOnly : Bool}
    (h : exec (onlyIf p (void (requireManager spaceId actorId ownerOnly))) σ = (.ok u, τ)) : τ = σ ∧ True := by
  rcases onlyIf_ok h with ⟨-, h⟩ | ⟨-, rfl⟩
  · obtain ⟨_, h⟩ := exec_void_ok.mp h
    exact ⟨(requireManager_ok h).1, trivial⟩
  · exact ⟨rfl, trivial⟩

theorem removeUser_changes (h : exec (removeUser spaceId actorId targetId) σ = (.ok u, τ)) : Changes now σ.view τ.view := by
  obtain ⟨_, -, h⟩ := read_bind organizationSpace_ok h
  obtain ⟨_, -, h⟩ := read_bind requireRemover_ok h
  rw [exec_view_bind] at h
  cases hfind : σ.view.membershipOf spaceId targetId with
  | none => simp [hfind] at h
  | some target =>
    simp only [hfind] at h
    rw [exec_view_bind, exec_require_bind_ok] at h
    obtain ⟨_, -, h⟩ := read_bind onlyIf_requireManager_ok h.2
    rcases onlyIf_ok h with ⟨-, h⟩ | ⟨-, rfl⟩
    · rw [exec_modifyView, Prod.mk.injEq] at h
      obtain ⟨-, rfl⟩ := h
      have hdropped : Changes now σ.view ((σ.view.moveUser target.id .removed).moveAgents (SponsoredBy target.id) .removed) :=
        .single (.dropUser (membershipOf_eq_some hfind).1)
      exact hdropped.roles
    · exact .refl

theorem createLink_changes {expiresInDays maxUses : Option ℕ} {link : LinkId} {code : String}
    (h : exec (createLink spaceId actorId expiresInDays maxUses link code now) σ = (.ok u, τ)) :
    Changes now σ.view τ.view := by
  obtain ⟨_, -, h⟩ := read_bind organizationSpace_ok h
  obtain ⟨_, -, h⟩ := read_bind requireManager_ok h
  rw [exec_require_bind_ok, exec_require_bind_ok, exec_view_bind, exec_require_bind_ok] at h
  obtain ⟨inviteLinks, -, rfl⟩ := insertRow_ok h.2.2.2
  exact .single .links

theorem revokeLink_changes {link : LinkId} (h : exec (revokeLink spaceId actorId link now) σ = (.ok u, τ)) :
    Changes now σ.view τ.view := by
  rw [revokeLink, exec_view_bind] at h
  cases hget : σ.view.inviteLinks.get? link with
  | none => simp [hget] at h
  | some found =>
    simp only [hget] at h
    rw [exec_require_bind_ok] at h
    obtain ⟨_, -, h⟩ := read_bind requireManager_ok h.2
    rcases onlyIf_ok h with ⟨-, h⟩ | ⟨-, rfl⟩
    · rw [exec_modifyView, Prod.mk.injEq] at h
      obtain ⟨-, rfl⟩ := h
      exact .single .links
    · exact .refl

theorem Changes.redeem {t t' : Tables} (h : Changes now t t') {link : InviteLink} :
    Changes now t (redeem t' id link userId) :=
  ((h.tail .roles).tail .links).tail (.users fun _ => rfl)

theorem acceptLink_changes {code : String} {answer : MembershipId}
    (h : exec (acceptLink code userId id now) σ = (.ok answer, τ)) : Changes now σ.view τ.view := by
  rw [acceptLink, exec_view_bind] at h
  cases hlink : σ.view.linkByCode code with
  | none => simp [hlink] at h
  | some link =>
    simp only [hlink] at h
    obtain ⟨_, -, h⟩ := read_bind organizationSpace_ok h
    obtain ⟨user, ⟨hmem, huser, -⟩, h⟩ := read_bind activeUser_ok h
    rw [exec_view_bind] at h
    cases hfind : σ.view.membershipOf link.spaceId userId with
    | none =>
      simp only [hfind] at h
      rw [exec_require_bind_ok, exec_bind_ok] at h
      obtain ⟨-, _, _, hinsert, h⟩ := h
      obtain ⟨userMemberships, hadds, hpair, rfl⟩ := insertUserMembership_ok hinsert
      rw [exec_modifyView_bind] at h
      obtain ⟨-, rfl⟩ := exec_pure_ok.mp h
      have hjoined : Changes now σ.view { σ.view with userMemberships } :=
        .single (.joinUser hadds hpair rfl ⟨user, hmem, huser⟩)
      exact hjoined.redeem
    | some membership =>
      simp only [hfind] at h
      split at h
      · obtain ⟨-, rfl⟩ := exec_pure_ok.mp h
        exact .refl
      · rename_i hstatus
        rw [exec_require_bind_ok, exec_require_bind_ok, exec_modifyView_bind] at h
        obtain ⟨-, rfl⟩ := exec_pure_ok.mp h.2.2
        have hmoved : Changes now σ.view (σ.view.moveUser membership.id .active) :=
          .single (.moveUser (membershipOf_eq_some hfind).1 hstatus)
        exact hmoved.roles.redeem

/-! ### Agents -/

variable (now) in
theorem ensureOwnership_ok {a : Agent} {owner : User} (ha : a ∈ σ.view.agents) (howner : owner ∈ σ.view.users)
    (hbound : a.userId = some owner.id) (h : exec (ensureOwnership a.agentId owner.id) σ = (.ok u, τ)) :
    Changes now σ.view τ.view ∧ (∀ m ∈ σ.view.userMemberships, m ∈ τ.view.userMemberships) ∧
      ∃ o ∈ τ.view.ownerships, o.agentId = a.agentId ∧ o.owner = .user owner.id := by
  rw [ensureOwnership, exec_view_bind] at h
  cases hget : σ.view.ownerships.get? a.agentId with
  | some o =>
    rw [hget] at h
    obtain ⟨hsame, rfl⟩ := exec_require_ok.mp h
    obtain ⟨ho, hid⟩ := Keyed.get?_eq_some_iff.mp hget
    exact ⟨.refl, fun _ hm => hm, o, ho, hid, hsame⟩
  | none =>
    rw [hget] at h
    obtain ⟨ownerships, hadds, rfl⟩ := insertRow_ok h
    exact ⟨.single (.own ha howner hbound hadds), fun _ hm => hm, _, hadds.mem_iff.mpr (.inr rfl), rfl, rfl⟩

variable (now) in
theorem registerPersonalAgent_ok {ids : AdmissionIds} (h : exec (registerPersonalAgent userId agentId ids) σ = (.ok u, τ)) :
    Changes now σ.view τ.view ∧ (∀ m ∈ σ.view.userMemberships, m ∈ τ.view.userMemberships) ∧
      ∃ o ∈ τ.view.ownerships, o.agentId = agentId ∧ o.owner = .user userId := by
  rw [registerPersonalAgent, exec_bind_ok] at h
  obtain ⟨personal, mid, hpersonal, h⟩ := h
  obtain ⟨hchanges, hkeep, owner, howner, rfl⟩ := ensurePersonalSpace_ok now hpersonal
  rw [exec_view_bind] at h
  cases hget : mid.view.agents.get? agentId with
  | none => simp [hget] at h
  | some a =>
    simp only [hget] at h
    rw [exec_require_bind_ok, exec_bind_ok] at h
    obtain ⟨⟨hbound, -, -⟩, _, mid', hown, h⟩ := h
    obtain ⟨ha, rfl⟩ := Keyed.get?_eq_some_iff.mp hget
    obtain ⟨hchanges', hkeep', o, ho, hagent, hsame⟩ := ensureOwnership_ok now ha howner hbound hown
    obtain ⟨sponsor, hsponsor, h⟩ := read_bind requireMembership_ok h
    have hboth := hchanges.trans hchanges'
    rw [exec_view_bind] at h
    cases hfind : mid'.view.agentMembershipOf personal a.agentId with
    | some m =>
      simp only [hfind] at h
      obtain ⟨-, rfl⟩ := exec_pure_ok.mp h
      exact ⟨hboth, fun m hm => hkeep' m (hkeep m hm), o, ho, hagent, hsame⟩
    | none =>
      simp only [hfind, exec_bind_ok] at h
      obtain ⟨_, _, hinsert, h⟩ := h
      obtain ⟨agentMemberships, hadds, hpair, rfl⟩ := insertAgentMembership_ok hinsert
      rw [exec_modifyView, Prod.mk.injEq] at h
      obtain ⟨-, rfl⟩ := h
      have hjoined : Changes now mid'.view { mid'.view with agentMemberships } :=
        .single (.joinAgent hadds hpair rfl hsponsor.mem rfl hsponsor.space hsponsor.status rfl
          ⟨o, ho, hagent, hsponsor.user ▸ hsame⟩)
      exact ⟨Changes.roles (hboth.trans hjoined), fun m hm => hkeep' m (hkeep m hm), o, ho, hagent, hsame⟩

theorem requestAgentAdmission_changes {ids : AdmissionIds} {answer : MembershipId}
    (h : exec (requestAgentAdmission spaceId userId agentId ids) σ = (.ok answer, τ)) : Changes now σ.view τ.view := by
  obtain ⟨_, -, h⟩ := read_bind organizationSpace_ok h
  obtain ⟨sponsor, hsponsor, h⟩ := read_bind requireMembership_ok h
  rw [exec_bind_ok] at h
  obtain ⟨_, mid, hregister, h⟩ := h
  obtain ⟨hchanges, hkeep, o, ho, hagent, howner⟩ := registerPersonalAgent_ok now hregister
  have hmem := hkeep sponsor hsponsor.mem
  rw [exec_view_bind] at h
  cases hfind : mid.view.agentMembershipOf spaceId agentId with
  | none =>
    simp only [hfind, exec_bind_ok] at h
    obtain ⟨_, _, hinsert, h⟩ := h
    obtain ⟨agentMemberships, hadds, hpair, rfl⟩ := insertAgentMembership_ok hinsert
    obtain ⟨-, rfl⟩ := exec_pure_ok.mp h
    exact hchanges.tail (.joinAgent hadds hpair rfl hmem rfl hsponsor.space hsponsor.status rfl
      ⟨o, ho, hagent, hsponsor.user ▸ howner⟩)
  | some membership =>
    simp only [hfind] at h
    split at h
    · obtain ⟨-, rfl⟩ := exec_pure_ok.mp h
      exact hchanges
    · rename_i hstatus
      rw [exec_modifyView_bind] at h
      obtain ⟨-, rfl⟩ := exec_pure_ok.mp h
      obtain ⟨hm, hspace, hid⟩ := agentMembershipOf_eq_some hfind
      have hasked : Changes now mid.view (mid.view.askAgain membership.id sponsor) :=
        .single (.askAgain hm (fun hactive => hstatus (.inl hactive)) hmem (hsponsor.space.trans hspace.symm)
          hsponsor.status ⟨o, ho, hagent.trans hid.symm, hsponsor.user ▸ howner⟩)
      exact Changes.roles (hchanges.trans hasked)

theorem approveAgent_changes {answer : MembershipId} (h : exec (approveAgent spaceId actorId agentId) σ = (.ok answer, τ)) :
    Changes now σ.view τ.view := by
  obtain ⟨_, -, h⟩ := read_bind organizationSpace_ok h
  obtain ⟨_, -, h⟩ := read_bind requireManager_ok h
  rw [exec_view_bind] at h
  cases hfind : σ.view.agentMembershipOf spaceId agentId with
  | none => simp [hfind] at h
  | some membership =>
    simp only [hfind] at h
    obtain ⟨hm, -, -⟩ := agentMembershipOf_eq_some hfind
    rw [exec_require_bind_ok, exec_modifyView_bind] at h
    obtain ⟨hstatus, h⟩ := h
    obtain ⟨_, -, h⟩ := read_bind requireAgentMembership_ok h
    rw [exec_bind_ok] at h
    obtain ⟨_, _, hversion, h⟩ := h
    obtain ⟨-, rfl⟩ := exec_pure_ok.mp h
    rcases onlyIf_ok hversion with ⟨hinvited, h⟩ | ⟨hnot, rfl⟩
    · -- both writes together are one change
      rw [exec_modifyView, Prod.mk.injEq] at h
      obtain ⟨-, rfl⟩ := h
      have happroved : Changes now σ.view (σ.view.moveAgents (·.id = membership.id) .active) :=
        .single (.approve hm hinvited)
      have hrows := Keyed.modify_modify (t := σ.view.agentMemberships) (p := fun m => m.id = membership.id)
        (f := fun m => { m with status := .active }) (g := fun m => { m with version := m.version + 1 })
        (fun _ => rfl) (fun _ => rfl) fun _ hid => hid
      simp only [hrows]
      exact happroved.roles
    · -- the membership is active already
      have hactive : membership.status = .active := hstatus.resolve_left hnot
      have hsame : σ.view.agentMemberships.modify (·.id = membership.id) (fun m => { m with status := .active }) =
          σ.view.agentMemberships := by
        refine Keyed.modify_eq_self _ fun m hmem hid => ?_
        obtain rfl := Keyed.eq_of_key hmem hm hid
        rw [← hactive]
      simp only [hsame]
      exact .refl

theorem removeAgent_changes (h : exec (removeAgent spaceId actorId agentId) σ = (.ok u, τ)) : Changes now σ.view τ.view := by
  obtain ⟨_, -, h⟩ := read_bind organizationSpace_ok h
  obtain ⟨actor, -, h⟩ := read_bind requireMembership_ok h
  rw [exec_view_bind] at h
  cases hfind : σ.view.agentMembershipOf spaceId agentId with
  | none => simp [hfind] at h
  | some membership =>
    simp only [hfind] at h
    obtain ⟨_, -, h⟩ := read_bind onlyIf_requireManager_ok h
    rcases onlyIf_ok h with ⟨-, h⟩ | ⟨-, rfl⟩
    · rw [exec_modifyView, Prod.mk.injEq] at h
      obtain ⟨-, rfl⟩ := h
      have hremoved : Changes now σ.view (σ.view.moveAgents (·.id = membership.id) .removed) :=
        .single (.removeAgent (agentMembershipOf_eq_some hfind).1)
      exact hremoved.roles
    · exact .refl

end Members

section Grants

variable {now : Instant} {σ τ : Session Tables} {spaceId : SpaceId} {actorId : UserId} {id answer : GrantId}

theorem createGrant_changes {form : GrantForm} (h : exec (createGrant spaceId actorId form id now) σ = (.ok answer, τ)) :
    Changes now σ.view τ.view := by
  unfold createGrant at h
  cases hrole : GrantRole.ofText form.role with
  | none => simp [hrole] at h
  | some role =>
    simp only [hrole] at h
    obtain ⟨_, ⟨s, hs, hsid, hkind, -⟩, h⟩ := read_bind organizationSpace_ok h
    obtain ⟨_, -, h⟩ := read_bind requireMembership_ok h
    obtain ⟨am, ⟨sponsor, ham, hactor⟩, h⟩ := read_bind requireOwnedOrgAgent_ok h
    rw [exec_require_bind_ok, exec_attempt_bind] at h
    obtain ⟨hother, h⟩ := h
    cases hgrantee : exec (requireMembership spaceId form.granteeUserId) σ with
    | mk answered μ =>
      rw [hgrantee] at h
      cases answered with
      | error e => simp at h
      | ok um =>
        obtain ⟨hsame, hum⟩ := requireMembership_ok hgrantee
        rw [hsame, exec_require_bind_ok, exec_modifyView_bind, exec_bind_ok] at h
        obtain ⟨-, _, _, hinsert, h⟩ := h
        obtain ⟨grants, hadds, rfl⟩ := insertRow_ok hinsert
        obtain ⟨-, rfl⟩ := exec_pure_ok.mp h
        obtain ⟨o, ho, howner⟩ := ham.owned.2
        obtain ⟨ho, hagent⟩ := Keyed.get?_eq_some_iff.mp ho
        exact .single (.grant ham.mem ham.status ⟨rfl, ham.space.symm, ham.agent.symm, rfl⟩ hum.mem hum.status
          ⟨rfl, hum.space.symm, hum.user.symm, rfl⟩ ⟨o, ho, hagent, hactor ▸ howner⟩ ⟨s, hs, hsid, hkind⟩ hadds hother)

theorem revokeGrant_changes (h : exec (revokeGrant spaceId actorId id now) σ = (.ok answer, τ)) :
    Changes now σ.view τ.view := by
  rw [revokeGrant, exec_view_bind] at h
  cases hget : σ.view.grants.get? id with
  | none => simp [hget] at h
  | some g =>
    simp only [hget] at h
    rw [exec_require_bind_ok] at h
    obtain ⟨_, -, h⟩ := read_bind requireMembership_ok h.2
    rw [exec_require_bind_ok, exec_bind_ok] at h
    obtain ⟨-, _, _, hrevoked, h⟩ := h
    obtain ⟨-, rfl⟩ := exec_pure_ok.mp h
    rcases onlyIf_ok hrevoked with ⟨-, h⟩ | ⟨-, rfl⟩
    · rw [exec_modifyView, Prod.mk.injEq] at h
      obtain ⟨-, rfl⟩ := h
      exact .single .revoke
    · exact .refl

end Grants

/-! ### Bindings -/

section Bindings

variable {now : Instant} {σ τ : Session Tables} {userId : UserId} {agentId : AgentId} {claimCode : String} {u : Unit}

theorem insertAgent_changes {a : Agent} (hagent : StartsWith 'a' a.agentId) (hbound : Claimed σ.view a)
    (h : exec (insertAgent a) σ = (.ok u, τ)) : Changes now σ.view τ.view := by
  obtain ⟨agents, hadds, rfl⟩ := insertRow_ok h
  exact .single (.agent hadds hagent hbound)

theorem requireQuota_ok {missing : Error} (h : exec (requireQuota userId missing) σ = (.ok u, τ)) :
    τ = σ ∧ ∃ u ∈ σ.view.users, u.id = userId := by
  rw [requireQuota, exec_view_bind] at h
  cases hget : σ.view.users.get? userId with
  | none => simp [hget] at h
  | some user =>
    simp only [hget] at h
    rw [exec_view_bind] at h
    obtain ⟨-, rfl⟩ := exec_require_ok.mp h
    exact ⟨rfl, user, Keyed.get?_eq_some_iff.mp hget⟩

theorem claimAgent_changes (h : exec (claimAgent userId agentId claimCode now) σ = (.ok u, τ)) :
    Changes now σ.view τ.view := by
  rw [claimAgent, exec_require_bind_ok] at h
  obtain ⟨⟨rest, hrest⟩, h⟩ := h
  obtain ⟨_, ⟨user, huser, rfl⟩, h⟩ := read_bind requireQuota_ok h
  rw [exec_view_bind] at h
  cases hget : σ.view.agents.get? agentId with
  | none =>
    simp only [hget] at h
    refine insertAgent_changes ?_ ?_ h
    · rw [StartsWith, ← hrest]
      rfl
    · intro id hid
      obtain rfl := Option.some.inj hid
      exact ⟨Option.some_ne_none now, user, huser, rfl⟩
  | some a =>
    simp only [hget] at h
    rw [exec_require_bind_ok, exec_require_bind_ok, exec_modifyView, Prod.mk.injEq] at h
    obtain ⟨-, hfree, -, rfl⟩ := h
    obtain ⟨ha, rfl⟩ := Keyed.get?_eq_some_iff.mp hget
    exact .single (.bind ha hfree huser)

theorem claimResolve_changes (h : exec (claimResolve userId claimCode now) σ = (.ok u, τ)) : Changes now σ.view τ.view := by
  simp only [claimResolve] at h
  rw [exec_require_bind_ok, exec_view_bind] at h
  obtain ⟨-, h⟩ := h
  generalize String.ofList (Kb.strip claimCode.toList) = claimCode at h
  cases hfind : σ.view.agents.rows.find? fun a => a.claimCode = claimCode ∧ a.status = .active with
  | none => simp only [hfind, exec_throw, Prod.mk.injEq, reduceCtorEq, false_and] at h
  | some a =>
    simp only [hfind] at h
    rw [exec_require_bind_ok] at h
    obtain ⟨hfree, h⟩ := h
    obtain ⟨_, ⟨user, huser, rfl⟩, h⟩ := read_bind requireQuota_ok h
    rw [exec_modifyView, Prod.mk.injEq] at h
    obtain ⟨-, rfl⟩ := h
    exact .single (.bind (List.mem_of_find?_eq_some hfind) hfree huser)

/-- The agent is bound to the user, and nothing stands against taking it away. -/
def Unbinds (t : Tables) (agentId : AgentId) (userId : UserId) (checks : UnbindChecks) : Prop :=
  (∃ a ∈ t.agents, a.agentId = agentId ∧ a.userId = some userId ∧ a.status = .active) ∧ checks = {}
deriving Decidable

theorem unbindAgentFromUser_ok {checks : UnbindChecks}
    (h : exec (unbindAgentFromUser agentId userId checks claimCode) σ = (.ok u, τ)) :
    Unbinds σ.view agentId userId checks ∧ τ.view = σ.view.unbind agentId claimCode := by
  rw [unbindAgentFromUser, exec_view_bind] at h
  cases hget : σ.view.agents.get? agentId with
  | none => simp [hget] at h
  | some a =>
    simp only [hget] at h
    rw [exec_require_bind_ok, exec_require_bind_ok, exec_require_bind_ok, exec_require_bind_ok, exec_require_bind_ok,
      exec_modifyView, Prod.mk.injEq] at h
    obtain ⟨⟨hbound, hactive⟩, hcloud, hwallet, hsubscribers, hpending, -, rfl⟩ := h
    obtain ⟨ha, hid⟩ := Keyed.get?_eq_some_iff.mp hget
    refine ⟨⟨⟨a, ha, hid, hbound, hactive⟩, ?_⟩, rfl⟩
    rw [UnbindChecks.mk.injEq]
    exact ⟨hcloud, hwallet, hsubscribers, hpending⟩

theorem signUp_changes {id : UserId} {hex : String} (h : exec (signUp id hex) σ = (.ok u, τ)) :
    Changes now σ.view τ.view := by
  rw [signUp, exec_view_bind, exec_require_bind_ok] at h
  obtain ⟨hnew, h⟩ := h
  obtain ⟨users, hadds, rfl⟩ := insertRow_ok h
  refine .single (.signUp hadds ?_ hnew ?_)
  · rw [StartsWith, String.toList_append]
    rfl
  · rw [String.startsWith_string_iff]
    exact ⟨hex.toList, (String.toList_append).symm⟩

theorem registerAgent_changes {hex : String} (h : exec (registerAgent hex claimCode) σ = (.ok u, τ)) :
    Changes now σ.view τ.view := by
  refine insertAgent_changes ?_ ?_ h
  · rw [StartsWith, String.toList_append]
    rfl
  · intro id hid
    cases hid

theorem setUser_changes {id : UserId} {active : Bool} {bannedAt : Option Instant}
    (h : exec (setUser id active bannedAt) σ = (.ok u, τ)) : Changes now σ.view τ.view := by
  rw [setUser, exec_modifyView, Prod.mk.injEq] at h
  obtain ⟨-, rfl⟩ := h
  exact .single (.users fun _ => rfl)

theorem setAgentStatus_changes {status : AgentStatus} (h : exec (setAgentStatus agentId status) σ = (.ok u, τ)) :
    Changes now σ.view τ.view := by
  rw [setAgentStatus, exec_modifyView, Prod.mk.injEq] at h
  obtain ⟨-, rfl⟩ := h
  exact .single .agentStatus

theorem setSpaceStatus_changes {id : SpaceId} {status : SpaceStatus} (h : exec (setSpaceStatus id status) σ = (.ok u, τ)) :
    Changes now σ.view τ.view := by
  rw [setSpaceStatus, exec_modifyView, Prod.mk.injEq] at h
  obtain ⟨-, rfl⟩ := h
  exact .single .spaceStatus

end Bindings

end BotCord.Spaces
