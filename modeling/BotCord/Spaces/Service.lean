import BotCord.Spaces.Tables

/-!
# The space service

`hub/services/spaces.py` and the links of `hub/services/org_invites.py`, function by function. The ids a call generates are its arguments; the audit trail, the display profiles and the rooms a member leaves are left out.
-/

namespace BotCord.Spaces

open Transaction

namespace Tables

variable (t : Tables)

/-- A membership of a user takes a new status under a new version. -/
def moveUser (id : MembershipId) (status : MembershipStatus) : Tables :=
  { t with
    userMemberships := t.userMemberships.modify (·.id = id) fun m => { m with status, version := m.version + 1 } }

def moveAgents (p : AgentMembership → Prop) [DecidablePred p] (status : MembershipStatus) : Tables :=
  { t with
    agentMemberships := t.agentMemberships.modify p fun m => { m with status, version := m.version + 1 } }

def askAgain (id : MembershipId) (sponsor : UserMembership) : Tables :=
  { t with
    agentMemberships := t.agentMemberships.modify (·.id = id) fun m =>
      { m with
        status := .invited, version := m.version + 1, sponsorUserMembershipId := sponsor.id
        sponsorVersion := sponsor.version } }

def unbindRoles (p : RoleSubject → Prop) [DecidablePred p] : Tables :=
  { t with roleBindings := t.roleBindings.filter fun b => ¬ p b.subject }

def bindRole (b : RoleBinding) : Tables := { t with roleBindings := t.roleBindings ++ [b] }

def putLink (id : LinkId) (f : InviteLink → InviteLink) (hf : ∀ l, (f l).id = l.id := by intro; rfl) : Tables :=
  { t with inviteLinks := t.inviteLinks.modify (·.id = id) f hf }

def SponsoredBy (sponsor : MembershipId) (m : AgentMembership) : Prop :=
  m.sponsorUserMembershipId = sponsor ∧ m.status ≠ .removed
deriving Decidable

end Tables

def insertRow {ρ κ : Type} [DecidableEq κ] {key : ρ → κ} (get : Tables → Keyed key) (set : Keyed key → Tables → Tables)
    (r : ρ) : Tx Unit := do
  match (get (← view)).insert? r with
  | some rows => modifyView (set rows)
  | none => throw .integrity

def insertSpace (space : Space) : Tx Unit := insertRow (·.spaces) (fun spaces t => { t with spaces }) space

def insertPersonalSpace (personal : PersonalSpace) : Tx Unit := do
  require (∀ x ∈ (← view).personalSpaces.rows, x.userId ≠ personal.userId) .integrity
  insertRow (·.personalSpaces) (fun personalSpaces t => { t with personalSpaces }) personal

def insertOrganization (org : Organization) : Tx Unit := do
  require (∀ x ∈ (← view).organizations.rows,
    x.spaceId ≠ org.spaceId ∧ x.slug ≠ org.slug ∧ x.principalId ≠ org.principalId) .integrity
  insertRow (·.organizations) (fun organizations t => { t with organizations }) org

def insertUserMembership (m : UserMembership) : Tx Unit := do
  require (∀ x ∈ (← view).userMemberships.rows, ¬ (x.spaceId = m.spaceId ∧ x.userId = m.userId)) .integrity
  insertRow (·.userMemberships) (fun userMemberships t => { t with userMemberships }) m

def insertAgentMembership (m : AgentMembership) : Tx Unit := do
  require (∀ x ∈ (← view).agentMemberships.rows, ¬ (x.spaceId = m.spaceId ∧ x.agentId = m.agentId)) .integrity
  insertRow (·.agentMemberships) (fun agentMemberships t => { t with agentMemberships }) m

def insertOwnership (o : AgentOwnership) : Tx Unit := insertRow (·.ownerships) (fun ownerships t => { t with ownerships }) o

def onlyIf (p : Prop) [Decidable p] (x : Tx Unit) : Tx Unit := if p then x else return ()

def activeUser (userId : UserId) : Tx User := do
  match (← view).users.get? userId with
  | none => throw (reject "user_not_active")
  | some u =>
    require u.Enabled (reject "user_not_active")
    return u

def organizationSpace (spaceId : SpaceId) : Tx Unit := do
  match (← view).spaces.get? spaceId with
  | none => throw (.http "space_not_available" 404)
  | some space => require (space.kind = .organization ∧ space.status = .active) (.http "space_not_available" 404)

def requireMembership (spaceId : SpaceId) (userId : UserId) : Tx UserMembership := do
  let _ ← activeUser userId
  let t ← view
  match t.membershipOf spaceId userId, t.spaces.get? spaceId with
  | some membership, some space =>
    require (space.status = .active ∧ membership.status = .active) (.http "space_not_available" 404)
    return membership
  | _, _ => throw (.http "space_not_available" 404)

/-- `require_manager`: an owner, or an admin as well. -/
def requireManager (spaceId : SpaceId) (userId : UserId) (ownerOnly : Bool := false) : Tx UserMembership := do
  let membership ← requireMembership spaceId userId
  let roles := (← view).rolesFor membership
  require (.owner ∈ roles ∨ (ownerOnly = false ∧ .admin ∈ roles)) (reject "organization_role_required")
  return membership

structure PersonalIds where
  spaceId : SpaceId
  membershipId : MembershipId

/-- The id of the user's personal space, which is created when it is first needed. -/
def ensurePersonalSpace (userId : UserId) (ids : PersonalIds) : Tx SpaceId := do
  let _ ← activeUser userId
  match (← view).personalSpaceOf userId with
  | some personal => return personal.spaceId
  | none =>
    insertSpace { id := ids.spaceId, kind := .personal }
    insertPersonalSpace { spaceId := ids.spaceId, userId }
    insertUserMembership { id := ids.membershipId, spaceId := ids.spaceId, userId }
    modifyView (·.bindRole { spaceId := ids.spaceId, subject := .user ids.membershipId, roleKey := .owner })
    return ids.spaceId

structure OrganizationIds where
  spaceId : SpaceId
  organizationId : OrganizationId
  membershipId : MembershipId
  /-- The digits of the principal id. -/
  hex : String
  personal : PersonalIds

def createOrganization (userId : UserId) (slug : String) (ids : OrganizationIds) : Tx Unit := do
  let _ ← ensurePersonalSpace userId ids.personal
  insertSpace { id := ids.spaceId, kind := .organization }
  insertOrganization { id := ids.organizationId, spaceId := ids.spaceId, slug, principalId := "og_" ++ ids.hex }
  insertUserMembership { id := ids.membershipId, spaceId := ids.spaceId, userId }
  modifyView (·.bindRole { spaceId := ids.spaceId, subject := .user ids.membershipId, roleKey := .owner })

def inviteUser (spaceId : SpaceId) (actorId targetId : UserId) (id : MembershipId) : Tx MembershipId := do
  organizationSpace spaceId
  let _ ← requireManager spaceId actorId
  let _ ← activeUser targetId
  match (← view).membershipOf spaceId targetId with
  | none =>
    insertUserMembership { id, spaceId, userId := targetId, status := .invited }
    return id
  | some membership =>
    if membership.status = .active ∨ membership.status = .invited then return membership.id
    else
      modifyView fun t => (t.moveUser membership.id .invited).unbindRoles (· = .user membership.id)
      return membership.id

def acceptInvitation (spaceId : SpaceId) (userId : UserId) : Tx MembershipId := do
  organizationSpace spaceId
  let _ ← activeUser userId
  match (← view).membershipOf spaceId userId with
  | none => throw (.http "invitation_not_found" 404)
  | some membership =>
    require (membership.status = .invited ∨ membership.status = .active) (.http "invitation_not_found" 404)
    if membership.status = .active then return membership.id
    else
      modifyView fun t =>
        (t.moveUser membership.id .active).bindRole { spaceId, subject := .user membership.id, roleKey := .member }
      return membership.id

def dropUser (t : Tables) (target : UserMembership) : Tables :=
  let agents := t.agentMemberships.rows.filter (Tables.SponsoredBy target.id ·)
  (((t.moveUser target.id .removed).unbindRoles (· = .user target.id)).moveAgents
    (Tables.SponsoredBy target.id) .removed).unbindRoles fun s => ∃ m ∈ agents, s = .agent m.id

def requireRemover (spaceId : SpaceId) (actorId targetId : UserId) : Tx Unit :=
  if actorId = targetId then void (requireMembership spaceId actorId) else void (requireManager spaceId actorId)

def removeUser (spaceId : SpaceId) (actorId targetId : UserId) : Tx Unit := do
  organizationSpace spaceId
  requireRemover spaceId actorId targetId
  match (← view).membershipOf spaceId targetId with
  | none => throw (.http "membership_not_found" 404)
  | some target =>
    let targetRoles := (← view).rolesFor target
    require (.owner ∉ targetRoles) (reject "organization_owner_cannot_be_removed")
    onlyIf (.admin ∈ targetRoles ∧ actorId ≠ targetId) (void (requireManager spaceId actorId true))
    onlyIf (target.status ≠ .removed) (modifyView fun t => dropUser t target)

inductive LinkStatus
  | active | revoked | expired | exhausted
deriving DecidableEq

def LinkStatus.text : LinkStatus → String
  | .active => "active"
  | .revoked => "revoked"
  | .expired => "expired"
  | .exhausted => "exhausted"

def linkStatus (link : InviteLink) (now : Instant) : LinkStatus :=
  if link.revokedAt ≠ none then .revoked
  else if link.expiresAt.any (· ≤ now) then .expired
  else if link.maxUses.any (· ≤ link.useCount) then .exhausted
  else .active

/-- One day, in microseconds. -/
def day : ℤ := 24 * 60 * 60 * 1000000

def maxUsesLimit : ℕ := 1000

def createLink (spaceId : SpaceId) (actorId : UserId) (expiresInDays maxUses : Option ℕ) (id : LinkId) (code : String)
    (now : Instant) : Tx Unit := do
  organizationSpace spaceId
  let _ ← requireManager spaceId actorId
  require (∀ days ∈ expiresInDays, 1 ≤ days ∧ days ≤ 90) (.http "invalid_expiry" 422)
  require (∀ uses ∈ maxUses, 1 ≤ uses ∧ uses ≤ maxUsesLimit) (.http "invalid_max_uses" 422)
  require (∀ x ∈ (← view).inviteLinks.rows, x.code ≠ code) .integrity
  insertRow (·.inviteLinks) (fun inviteLinks t => { t with inviteLinks })
    { id, spaceId, code, maxUses, expiresAt := expiresInDays.map fun days => now + days * day }

def revokeLink (spaceId : SpaceId) (actorId : UserId) (linkId : LinkId) (now : Instant) : Tx Unit := do
  match (← view).inviteLinks.get? linkId with
  | none => throw (.http "invite_link_not_found" 404)
  | some link =>
    require (link.spaceId = spaceId) (.http "invite_link_not_found" 404)
    let _ ← requireManager spaceId actorId
    onlyIf (link.revokedAt = none) (modifyView (·.putLink linkId fun l => { l with revokedAt := some now }))

def redeem (t : Tables) (membership : MembershipId) (link : InviteLink) (userId : UserId) : Tables :=
  let t := t.bindRole { spaceId := link.spaceId, subject := .user membership, roleKey := .member }
  let t := t.putLink link.id fun l => { l with useCount := l.useCount + 1 }
  { t with users := t.users.modify (·.id = userId) fun u => { u with betaAccess := true } }

/-- `accept`: the caller becomes an active member. -/
def acceptLink (code : String) (userId : UserId) (id : MembershipId) (now : Instant) : Tx MembershipId := do
  match (← view).linkByCode code with
  | none => throw (.http "invite_link_not_found" 404)
  | some link =>
    organizationSpace link.spaceId
    let _ ← activeUser userId
    match (← view).membershipOf link.spaceId userId with
    | none =>
      require (linkStatus link now = .active) (.http ("invite_link_" ++ (linkStatus link now).text) 410)
      insertUserMembership { id, spaceId := link.spaceId, userId }
      modifyView fun t => redeem t id link userId
      return id
    | some membership =>
      if membership.status = .active then return membership.id
      else
        require (linkStatus link now = .active) (.http ("invite_link_" ++ (linkStatus link now).text) 410)
        require (membership.status ≠ .removed ∧ membership.status ≠ .suspended)
          (reject "membership_requires_direct_invite")
        modifyView fun t =>
          redeem ((t.moveUser membership.id .active).unbindRoles (· = .user membership.id)) membership.id link userId
        return membership.id

structure AdmissionIds where
  personal : PersonalIds
  /-- The membership of the agent in the personal space. -/
  personalMembershipId : MembershipId
  membershipId : MembershipId

def ensureOwnership (agentId : AgentId) (userId : UserId) : Tx Unit := do
  match (← view).ownerships.get? agentId with
  | some ownership => require (ownership.owner = .user userId) (.http "agent_ownership_conflict" 409)
  | none => insertOwnership { agentId, owner := .user userId }

def registerPersonalAgent (userId : UserId) (agentId : AgentId) (ids : AdmissionIds) : Tx Unit := do
  let personal ← ensurePersonalSpace userId ids.personal
  match (← view).agents.get? agentId with
  | none => throw (reject "owned_agent_required")
  | some agent =>
    require (agent.userId = some userId ∧ agent.status = .active ∧ agent.claimedAt ≠ none) (reject "owned_agent_required")
    ensureOwnership agentId userId
    let sponsor ← requireMembership personal userId
    match (← view).agentMembershipOf personal agentId with
    | some _ => return ()
    | none =>
      insertAgentMembership
        { id := ids.personalMembershipId, spaceId := personal, agentId, status := .active
          sponsorUserMembershipId := sponsor.id, sponsorVersion := sponsor.version }
      modifyView (·.bindRole { spaceId := personal, subject := .agent ids.personalMembershipId, roleKey := .participant })

def requestAgentAdmission (spaceId : SpaceId) (userId : UserId) (agentId : AgentId) (ids : AdmissionIds) :
    Tx MembershipId := do
  organizationSpace spaceId
  let sponsor ← requireMembership spaceId userId
  registerPersonalAgent userId agentId ids
  match (← view).agentMembershipOf spaceId agentId with
  | none =>
    insertAgentMembership
      { id := ids.membershipId, spaceId, agentId, sponsorUserMembershipId := sponsor.id
        sponsorVersion := sponsor.version }
    return ids.membershipId
  | some membership =>
    if membership.status = .active ∨ membership.status = .invited then return membership.id
    else
      modifyView fun t => (t.askAgain membership.id sponsor).unbindRoles (· = .agent membership.id)
      return membership.id

def OwnedAgent (t : Tables) (agentId : AgentId) (userId : UserId) : Prop :=
  (∃ agent ∈ t.agents.get? agentId, agent.status = .active ∧ agent.claimedAt ≠ none ∧ agent.userId = some userId) ∧
    ∃ ownership ∈ t.ownerships.get? agentId, ownership.owner = .user userId
deriving Decidable

def requireAgentMembership (spaceId : SpaceId) (agentId : AgentId) (expectedVersion : Option ℕ := none) :
    Tx AgentMembership := do
  match (← view).agentMembershipOf spaceId agentId with
  | none => throw (reject "agent_membership_required")
  | some membership =>
    require (membership.status = .active) (reject "agent_membership_required")
    require (∀ version ∈ expectedVersion, membership.version = version) (reject "membership_version_stale")
    match (← view).userMemberships.get? membership.sponsorUserMembershipId with
    | none => throw (reject "sponsor_not_active")
    | some sponsor =>
      require (sponsor.version = membership.sponsorVersion) (reject "sponsor_not_active")
      let _ ← requireMembership spaceId sponsor.userId
      require (OwnedAgent (← view) agentId sponsor.userId) (reject "owned_agent_required")
      return membership

def approveAgent (spaceId : SpaceId) (actorId : UserId) (agentId : AgentId) : Tx MembershipId := do
  organizationSpace spaceId
  let _ ← requireManager spaceId actorId
  match (← view).agentMembershipOf spaceId agentId with
  | none => throw (.http "agent_admission_not_found" 404)
  | some membership =>
    require (membership.status = .invited ∨ membership.status = .active) (.http "agent_admission_not_found" 404)
    -- the status is written before the check that reads it, and the version after
    modifyView fun t =>
      { t with agentMemberships := t.agentMemberships.modify (·.id = membership.id) fun m => { m with status := .active } }
    let _ ← requireAgentMembership spaceId agentId
    onlyIf (membership.status = .invited) (modifyView fun t =>
      { t with
        agentMemberships :=
          t.agentMemberships.modify (·.id = membership.id) fun m => { m with version := m.version + 1 }
        roleBindings := t.roleBindings ++ [{ spaceId, subject := .agent membership.id, roleKey := .participant }] })
    return membership.id

def removeAgent (spaceId : SpaceId) (actorId : UserId) (agentId : AgentId) : Tx Unit := do
  organizationSpace spaceId
  let actor ← requireMembership spaceId actorId
  match (← view).agentMembershipOf spaceId agentId with
  | none => throw (.http "agent_membership_not_found" 404)
  | some membership =>
    onlyIf (membership.sponsorUserMembershipId ≠ actor.id) (void (requireManager spaceId actorId))
    onlyIf (membership.status ≠ .removed) (modifyView fun t =>
      (t.moveAgents (·.id = membership.id) .removed).unbindRoles (· = .agent membership.id))

end BotCord.Spaces
