import BotCord.Access.Graph
import BotCord.Foundation.Keyed
import BotCord.Foundation.Transaction

/-!
# Spaces, memberships and grants

The tables of `hub/models.py` that membership, agent ownership and access grants live in, with the columns that a call here reads. Every table has a primary key; the other unique keys are checked by the insert that could break them.
-/

namespace BotCord.Spaces

export Access (Instant PrincipalId)

abbrev UserId := ℕ
abbrev SpaceId := ℕ
abbrev OrganizationId := ℕ
abbrev MembershipId := ℕ
abbrev GrantId := ℕ
abbrev LinkId := ℕ
abbrev AgentId := PrincipalId

/-- `active` is the status "active". -/
structure User where
  id : UserId
  humanId : PrincipalId
  active : Bool := true
  bannedAt : Option Instant := none
  maxAgents : ℕ := 30
  betaAccess : Bool := false
deriving DecidableEq

def User.Enabled (u : User) : Prop := u.active = true ∧ u.bannedAt = none
deriving Decidable

inductive AgentStatus
  | active | paused | deleted
deriving DecidableEq

structure Agent where
  agentId : AgentId
  userId : Option UserId := none
  claimedAt : Option Instant := none
  claimCode : String
  status : AgentStatus := .active
deriving DecidableEq

inductive Owner
  | user (id : UserId)
  | organization (id : OrganizationId)
deriving DecidableEq

structure AgentOwnership where
  agentId : AgentId
  owner : Owner

inductive SpaceKind
  | personal | organization
deriving DecidableEq

inductive SpaceStatus
  | active | suspended | archived
deriving DecidableEq

structure Space where
  id : SpaceId
  kind : SpaceKind
  status : SpaceStatus := .active

structure PersonalSpace where
  spaceId : SpaceId
  userId : UserId

structure Organization where
  id : OrganizationId
  spaceId : SpaceId
  slug : String
  principalId : PrincipalId

inductive MembershipStatus
  | invited | active | suspended | removed
deriving DecidableEq

structure UserMembership where
  id : MembershipId
  spaceId : SpaceId
  userId : UserId
  status : MembershipStatus := .active
  version : ℕ := 1

structure AgentMembership where
  id : MembershipId
  spaceId : SpaceId
  agentId : AgentId
  sponsorUserMembershipId : MembershipId
  sponsorVersion : ℕ
  status : MembershipStatus := .invited
  version : ℕ := 1

inductive RoleKey
  | owner | admin | member | participant
deriving DecidableEq

/-- The membership that has a role: one of a user, or one of an agent. -/
inductive RoleSubject
  | user (membership : MembershipId)
  | agent (membership : MembershipId)
deriving DecidableEq

structure RoleBinding where
  spaceId : SpaceId
  subject : RoleSubject
  roleKey : RoleKey

structure InviteLink where
  id : LinkId
  spaceId : SpaceId
  code : String
  maxUses : Option ℕ := some 1
  useCount : ℕ := 0
  expiresAt : Option Instant := none
  revokedAt : Option Instant := none

inductive GrantRole
  | consultant | collaborator
deriving DecidableEq

structure AgentAccessGrant where
  id : GrantId
  spaceId : SpaceId
  agentId : AgentId
  agentMembershipId : MembershipId
  agentMembershipVersion : ℕ
  granteeUserId : UserId
  granteeMembershipId : MembershipId
  granteeMembershipVersion : ℕ
  role : GrantRole
  workspacePath : Option String := none
  allowedCommands : List String := []
  expiresAt : Option Instant := none
  revokedAt : Option Instant := none
  createdByUserId : UserId
deriving DecidableEq

structure Tables where
  users : Keyed User.id := {}
  agents : Keyed Agent.agentId := {}
  ownerships : Keyed AgentOwnership.agentId := {}
  spaces : Keyed Space.id := {}
  personalSpaces : Keyed PersonalSpace.spaceId := {}
  organizations : Keyed Organization.id := {}
  userMemberships : Keyed UserMembership.id := {}
  agentMemberships : Keyed AgentMembership.id := {}
  roleBindings : List RoleBinding := []
  inviteLinks : Keyed InviteLink.id := {}
  grants : Keyed AgentAccessGrant.id := {}

inductive Error
  | http (detail : String) (status : ℕ)
  | integrity | noResultFound

def reject (code : String) : Error := .http code 403

abbrev Tx (α : Type) := Transaction Tables Error α

namespace Tables

variable (t : Tables)

def personalSpaceOf (userId : UserId) : Option PersonalSpace := t.personalSpaces.rows.find? (·.userId = userId)

def membershipOf (spaceId : SpaceId) (userId : UserId) : Option UserMembership :=
  t.userMemberships.rows.find? fun m => m.spaceId = spaceId ∧ m.userId = userId

def agentMembershipOf (spaceId : SpaceId) (agentId : AgentId) : Option AgentMembership :=
  t.agentMemberships.rows.find? fun m => m.spaceId = spaceId ∧ m.agentId = agentId

def linkByCode (code : String) : Option InviteLink := t.inviteLinks.rows.find? (·.code = code)

def rolesFor (m : UserMembership) : List RoleKey :=
  (t.roleBindings.filter fun b => b.spaceId = m.spaceId ∧ b.subject = .user m.id).map (·.roleKey)

def boundAgents (userId : UserId) : List Agent :=
  t.agents.rows.filter fun a => a.userId = some userId ∧ a.status = .active

variable {t} {spaceId : SpaceId} {userId : UserId} {agentId : AgentId}

theorem membershipOf_eq_some {m : UserMembership} (h : t.membershipOf spaceId userId = some m) :
    m ∈ t.userMemberships ∧ m.spaceId = spaceId ∧ m.userId = userId :=
  ⟨List.mem_of_find?_eq_some h, by simpa using List.find?_some h⟩

theorem membershipOf_eq_none (h : t.membershipOf spaceId userId = none) {m : UserMembership}
    (hm : m ∈ t.userMemberships) : ¬ (m.spaceId = spaceId ∧ m.userId = userId) := by
  simpa using List.find?_eq_none.mp h m hm

theorem agentMembershipOf_eq_some {m : AgentMembership} (h : t.agentMembershipOf spaceId agentId = some m) :
    m ∈ t.agentMemberships ∧ m.spaceId = spaceId ∧ m.agentId = agentId :=
  ⟨List.mem_of_find?_eq_some h, by simpa using List.find?_some h⟩

theorem agentMembershipOf_eq_none (h : t.agentMembershipOf spaceId agentId = none) {m : AgentMembership}
    (hm : m ∈ t.agentMemberships) : ¬ (m.spaceId = spaceId ∧ m.agentId = agentId) := by
  simpa using List.find?_eq_none.mp h m hm

end Tables

end BotCord.Spaces
