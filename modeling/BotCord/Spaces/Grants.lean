import BotCord.Spaces.Service

/-!
# Access grants

`hub/services/agent_access.py`: a grant lets one member of an organization call an agent of another one. `legacyGrantIsValid` walks the tables; the answer that counts comes from the access graph.
-/

namespace BotCord.Spaces

open Transaction

def GrantRole.ofText : String → Option GrantRole
  | "consultant" => some .consultant
  | "collaborator" => some .collaborator
  | _ => none

def GrantRole.text : GrantRole → String
  | .consultant => "consultant"
  | .collaborator => "collaborator"

/-- The agent is an active member of the organization and the user is its owner. -/
def requireOwnedOrgAgent (spaceId : SpaceId) (ownerId : UserId) (agentId : AgentId) : Tx AgentMembership := do
  let membership ← requireAgentMembership spaceId agentId
  match (← view).userMemberships.get? membership.sponsorUserMembershipId with
  | none => throw (reject "agent_owner_required")
  | some sponsor =>
    require (sponsor.userId = ownerId) (reject "agent_owner_required")
    return membership

structure GrantForm where
  agentId : AgentId
  granteeUserId : UserId
  role : String
  expiresAt : Option Instant := none
  workspacePath : Option String := none
  allowedCommands : List String := []

/-- A grant of the same agent to the same grantee in the same space that has not been revoked. -/
def Replaces (g old : AgentAccessGrant) : Prop :=
  old.spaceId = g.spaceId ∧ old.agentId = g.agentId ∧ old.granteeUserId = g.granteeUserId ∧ old.revokedAt = none
deriving Decidable

namespace Tables

variable (t : Tables)

def revokeGrants (p : AgentAccessGrant → Prop) [DecidablePred p] (now : Instant) : Tables :=
  { t with grants := t.grants.modify p fun g => { g with revokedAt := some now } }

end Tables

def createGrant (spaceId : SpaceId) (actorId : UserId) (form : GrantForm) (id : GrantId) (now : Instant) : Tx GrantId := do
  match GrantRole.ofText form.role with
  | none => throw (.http "invalid_role" 422)
  | some role =>
    organizationSpace spaceId
    let _ ← requireMembership spaceId actorId
    let agentMembership ← requireOwnedOrgAgent spaceId actorId form.agentId
    require (form.granteeUserId ≠ actorId) (.http "cannot_grant_self" 422)
    match ← attempt (requireMembership spaceId form.granteeUserId) with
    | .error _ => throw (.http "grantee_not_member" 404)
    | .ok granteeMembership =>
      require (∀ expiresAt ∈ form.expiresAt, now < expiresAt) (.http "expires_in_past" 422)
      let grant : AgentAccessGrant :=
        { id, spaceId, agentId := form.agentId, agentMembershipId := agentMembership.id
          agentMembershipVersion := agentMembership.version, granteeUserId := form.granteeUserId
          granteeMembershipId := granteeMembership.id, granteeMembershipVersion := granteeMembership.version, role
          workspacePath := form.workspacePath.filter (· ≠ ""), allowedCommands := form.allowedCommands
          expiresAt := form.expiresAt, createdByUserId := actorId }
      -- One live grant for each space, agent and grantee: a new grant replaces the old one.
      modifyView (·.revokeGrants (Replaces grant) now)
      insertRow (·.grants) (fun grants t => { t with grants }) grant
      return id

def revokeGrant (spaceId : SpaceId) (actorId : UserId) (grantId : GrantId) (now : Instant) : Tx GrantId := do
  match (← view).grants.get? grantId with
  | none => throw (.http "grant_not_found" 404)
  | some grant =>
    require (grant.spaceId = spaceId) (.http "grant_not_found" 404)
    let _ ← requireMembership spaceId actorId
    -- Only the owner who issued the grant may revoke it.
    require (grant.createdByUserId = actorId) (reject "agent_owner_required")
    onlyIf (grant.revokedAt = none) (modifyView (·.revokeGrants (·.id = grantId) now))
    return grantId

def returns {α : Type} (x : Tx α) (t : Tables) : Bool := (exec x ⟨t, t⟩).1.isOk

def legacyGrantIsValid (t : Tables) (g : AgentAccessGrant) (now : Instant) : Bool :=
  g.revokedAt.isNone && g.expiresAt.all (now < ·)
    && (t.spaces.get? g.spaceId).any (fun s => s.kind = .organization && s.status = .active)
    && (t.userMemberships.get? g.granteeMembershipId).any
      (fun m => m.status = .active && m.version = g.granteeMembershipVersion)
    && (t.users.get? g.granteeUserId).any (fun u => u.Enabled)
    && (t.agentMemberships.get? g.agentMembershipId).any
      (fun m => m.status = .active && m.version = g.agentMembershipVersion)
    && returns (requireOwnedOrgAgent g.spaceId g.createdByUserId g.agentId) t

end BotCord.Spaces
