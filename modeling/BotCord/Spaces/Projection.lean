import BotCord.Access.Agree
import BotCord.Spaces.Grants

/-!
# The write-through projection

`sync_access_graph` of `hub/services/access_graph_sync.py` for the kinds that a writing transaction projects before it commits: ownership, membership and grants. Each row of the tables asks for at most one edge, which carries the source it came from; edges that nothing asks for any more are revoked, never deleted. The names, the event log and the counters are left out, and so are the terms of these edges, which no decision reads.
-/

namespace BotCord.Spaces

open Access (EdgeId EdgeKind EdgeStatus AccessEdge AccessEdgeDep AccessPrincipal Graph Terms publicPrincipalId)

/-- The row an edge was projected from; the edges of other kinds have sources of their own. -/
inductive Source
  | ownership (agentId : AgentId)
  | userMembership (id : MembershipId)
  | agentMembership (id : MembershipId)
  | grant (id : GrantId)
  | other (key : String)
deriving DecidableEq

inductive NodeKind
  | user | agent | organization | everyone | conversation
deriving DecidableEq

/-- `_FIELDS`: what is compared to decide whether a projected edge changed. -/
structure Fields where
  kind : EdgeKind
  fromId : PrincipalId
  fromKind : NodeKind
  toId : PrincipalId
  toKind : NodeKind
  scopeOrgId : PrincipalId := ""
  role : Option String := none
  terms : Terms := {}
  status : EdgeStatus := .active
  issuedBy : Option PrincipalId := none
  expiresAt : Option Instant := none
  revokedAt : Option Instant := none
deriving DecidableEq

/-- `_Edge`: an edge that the tables ask for. Without a version of its own it gets a new one on every change. -/
structure Edge where
  source : Source
  fields : Fields
  version : Option ℕ := none
  deps : List (Source × ℕ) := []
  capability : Option String := none
deriving DecidableEq

structure EdgeRow where
  source : Source
  id : EdgeId
  fields : Fields
  version : ℕ
  capability : Option String

/-- Pending or active: the statuses in which the key of an edge is unique. -/
def Fields.Open (f : Fields) : Prop := f.status = .pending ∨ f.status = .active
deriving Decidable

def Fields.key (f : Fields) : EdgeKind × PrincipalId × PrincipalId × PrincipalId :=
  (f.kind, f.fromId, f.toId, f.scopeOrgId)

def EdgeRow.toEdge (row : EdgeRow) : AccessEdge where
  id := row.id
  kind := row.fields.kind
  fromId := row.fields.fromId
  toId := row.fields.toId
  scopeOrgId := row.fields.scopeOrgId
  role := row.fields.role
  terms := row.fields.terms
  status := row.fields.status
  version := row.version
  issuedBy := row.fields.issuedBy
  capability := row.capability
  expiresAt := row.fields.expiresAt

/-- The tables of the graph: at most one edge of a source, and no two edges of one id. -/
structure Projection where
  rows : Keyed EdgeRow.source := {}
  ids : (rows.rows.map (·.id)).Nodup := by exact List.nodup_nil
  deps : List AccessEdgeDep := []
  principals : Keyed AccessPrincipal.id := {}

def Projection.graph (p : Projection) : Graph where
  edges := p.rows.rows.map (·.toEdge)
  deps := p.deps
  principals := p.principals.rows
  edges_distinct := by
    rw [List.map_map]
    exact p.ids

namespace Tables

variable (t : Tables)

def humanOf (userId : UserId) : Option PrincipalId := (t.users.get? userId).map (·.humanId)

def orgOf (spaceId : SpaceId) : Option PrincipalId :=
  (t.organizations.rows.find? (·.spaceId = spaceId)).map (·.principalId)

def orgById (id : OrganizationId) : Option PrincipalId := (t.organizations.get? id).map (·.principalId)

def userPrincipal (u : User) : AccessPrincipal where
  id := u.humanId
  active := decide u.Enabled

def agentPrincipal (a : Agent) : AccessPrincipal where
  id := a.agentId
  active := a.status = .active

def organizationPrincipal (o : Organization) : Option AccessPrincipal :=
  (t.spaces.get? o.spaceId).map fun s => { id := o.principalId, active := s.status = .active }

def desiredPrincipals : List AccessPrincipal :=
  { id := publicPrincipalId } :: t.users.rows.map userPrincipal ++ t.agents.rows.map agentPrincipal
    ++ t.organizations.rows.filterMap t.organizationPrincipal

def owns (owner : PrincipalId) (kind : NodeKind) (agentId : AgentId) : Edge where
  source := .ownership agentId
  fields := { kind := .ownership, fromId := owner, fromKind := kind, toId := agentId, toKind := .agent }

/-- The row of the ownership table names the owner; without one it is the user the agent is bound to. -/
def ownerOf (agent : Agent) : Option (PrincipalId × NodeKind) :=
  match t.ownerships.get? agent.agentId with
  | some ⟨_, .organization id⟩ => (t.orgById id).map (·, .organization)
  | some ⟨_, .user id⟩ => (t.humanOf id).map (·, .user)
  | none => (agent.userId.bind t.humanOf).map (·, .user)

def ownershipEdge (agent : Agent) : Option Edge :=
  ((t.ownerOf agent).filter (·.1 ≠ "")).map fun owner => owns owner.1 owner.2 agent.agentId

def roleRank : RoleKey → ℕ
  | .owner => 3
  | .admin => 2
  | .member => 1
  | .participant => 0

def roleText : RoleKey → String
  | .owner => "owner"
  | .admin => "admin"
  | .member => "member"
  | .participant => "participant"

def roleOf (id : MembershipId) : String :=
  ((t.roleBindings.filter (·.subject = .user id)).foldl
    (fun best b => if (best.elim 0 roleRank) < roleRank b.roleKey then some b.roleKey else best) none).elim "member" roleText

def edgeStatus : MembershipStatus → EdgeStatus
  | .invited => .pending
  | .active => .active
  | .suspended | .removed => .revoked

def userMembershipEdge (m : UserMembership) : Option Edge :=
  (t.orgOf m.spaceId).bind fun org => (t.humanOf m.userId).map fun human =>
    { source := .userMembership m.id
      fields :=
        { kind := .membership, fromId := human, fromKind := .user, toId := org, toKind := .organization
          role := some (t.roleOf m.id), status := edgeStatus m.status }
      version := some m.version }

def agentMembershipEdge (m : AgentMembership) : Option Edge :=
  (t.orgOf m.spaceId).map fun org =>
    { source := .agentMembership m.id
      fields :=
        { kind := .membership, fromId := m.agentId, fromKind := .agent, toId := org, toKind := .organization
          role := some "participant", status := edgeStatus m.status }
      version := some m.version
      deps := [(.userMembership m.sponsorUserMembershipId, m.sponsorVersion)] }

/-- `_lifecycle` -/
def lifecycle (expiresAt revokedAt : Option Instant) (now : Instant) : EdgeStatus :=
  if revokedAt ≠ none then .revoked else if expiresAt.any (· ≤ now) then .expired else .active

def grantEdge (now : Instant) (g : AgentAccessGrant) : Option Edge :=
  (t.humanOf g.granteeUserId).map fun grantee =>
    { source := .grant g.id
      fields :=
        { kind := .grant, fromId := grantee, fromKind := .user, toId := g.agentId, toKind := .agent
          scopeOrgId := (t.orgOf g.spaceId).getD "", role := some g.role.text
          status := lifecycle g.expiresAt g.revokedAt now, issuedBy := t.humanOf g.createdByUserId
          expiresAt := g.expiresAt, revokedAt := g.revokedAt }
      deps :=
        [(.userMembership g.granteeMembershipId, g.granteeMembershipVersion),
          (.agentMembership g.agentMembershipId, g.agentMembershipVersion)] }

/-- `_desired_edges` for the kinds that are written through. -/
def desiredEdges (now : Instant) : List Edge :=
  (t.agents.rows.filter (·.status = .active)).filterMap t.ownershipEdge
    ++ t.userMemberships.rows.filterMap t.userMembershipEdge
    ++ t.agentMemberships.rows.filterMap t.agentMembershipEdge
    ++ t.grants.rows.filterMap (t.grantEdge now)

end Tables

/-- `WRITE_THROUGH_KINDS` -/
def WriteThrough (kind : EdgeKind) : Prop := kind = .ownership ∨ kind = .membership ∨ kind = .grant
deriving Decidable

/-- The edges that are taken over: both ends are known, and no earlier one has the same key while it is open. -/
def selectWanted (known : List PrincipalId) :
    List (EdgeKind × PrincipalId × PrincipalId × PrincipalId) → List Edge → List Edge
  | _, [] => []
  | seen, e :: rest =>
    if ¬ (e.fields.fromId ∈ known ∧ (e.fields.toKind = .conversation ∨ e.fields.toId ∈ known)) then
      selectWanted known seen rest
    else if e.fields.Open then
      if e.fields.key ∈ seen then selectWanted known seen rest
      else e :: selectWanted known (e.fields.key :: seen) rest
    else e :: selectWanted known seen rest

/-- `_same` -/
def Same (row : EdgeRow) (want : Edge) : Prop := row.fields = want.fields ∧ ∀ v ∈ want.version, row.version = v
deriving Decidable

namespace Projection

variable (p : Projection)

def freshId : EdgeId := (p.rows.rows.map (·.id)).foldr max 0 + 1

theorem freshId_not_mem : p.freshId ∉ p.rows.rows.map (·.id) := by
  have hle : ∀ (ids : List EdgeId), ∀ id ∈ ids, id ≤ ids.foldr max 0 := by
    intro ids
    induction ids with
    | nil => simp
    | cons first rest ih =>
      intro id hid
      rw [List.foldr_cons]
      rcases List.mem_cons.mp hid with rfl | hrest
      · exact le_max_left _ _
      · exact le_max_of_le_right (ih id hrest)
  intro hmem
  exact Nat.not_succ_le_self _ (hle _ _ hmem)

def modifyRows (cond : EdgeRow → Prop) [DecidablePred cond] (f : EdgeRow → EdgeRow)
    (hsource : ∀ r, (f r).source = r.source := by intro; rfl) (hid : ∀ r, (f r).id = r.id := by intro; rfl) :
    Projection :=
  { p with
    rows := p.rows.modify cond f hsource
    ids := by
      have hkeep : ((p.rows.modify cond f hsource).rows.map (·.id)) = p.rows.rows.map (·.id) :=
        Table.map_update fun r _ _ => hid r
      rw [hkeep]
      exact p.ids }

def addRow (want : Edge) : Projection :=
  match h : p.rows.insert? ⟨want.source, p.freshId, want.fields, (want.version.filter (0 < ·)).getD 1, want.capability⟩ with
  | some rows =>
    { p with
      rows
      ids := by
        rw [(Keyed.insert?_eq_some h).rows]
        exact Table.nodup_append_singleton p.ids fun x hx hid =>
          p.freshId_not_mem (List.mem_map.mpr ⟨x, hx, hid⟩) }
  | none => p

def upsert (want : Edge) : Projection :=
  match p.rows.get? want.source with
  | none => p.addRow want
  | some row =>
    if Same row want then p
    else
      p.modifyRows (·.source = want.source) fun r =>
        { r with fields := want.fields, version := want.version.getD (r.version + 1) }

def putPrincipal (want : AccessPrincipal) : Projection :=
  { p with
    principals :=
      match p.principals.insert? want with
      | some principals => principals
      | none => p.principals.modify (·.id = want.id) fun q => { q with active := want.active } }

def syncPrincipals (want : List AccessPrincipal) : Projection :=
  want.foldl putPrincipal
    { p with principals := p.principals.modify (·.id ∉ want.map (·.id)) fun q => { q with active := false } }

/-- Edges of the projected kinds that nothing asks for are revoked. -/
def revokeUnwanted (wanted : List Edge) (now : Instant) : Projection :=
  p.modifyRows (fun r => WriteThrough r.fields.kind ∧ r.source ∉ wanted.map (·.source) ∧ r.fields.Open) fun r =>
    { r with fields := { r.fields with status := .revoked, revokedAt := some now }, version := r.version + 1 }

/-- What an edge depends on: the edges of the named sources that exist, at the named versions. -/
def targets (id : EdgeId) (want : Edge) : List AccessEdgeDep :=
  want.deps.filterMap fun dep =>
    (p.rows.get? dep.1).map fun r => { edgeId := id, dependsOnEdgeId := r.id, dependsOnVersion := dep.2 }

def syncDeps (want : Edge) : Projection :=
  match p.rows.get? want.source with
  | none => p
  | some row => { p with deps := p.deps.filter (·.edgeId ≠ row.id) ++ p.targets row.id want }

/-- `sync_access_graph`: the edges that leave the open states are written first. -/
def sync (t : Tables) (now : Instant) : Projection :=
  let p := p.syncPrincipals t.desiredPrincipals
  let wanted := selectWanted (p.principals.rows.map (·.id)) [] (t.desiredEdges now)
  let p := p.revokeUnwanted wanted now
  let p := (wanted.filter (¬ ·.fields.Open) ++ wanted.filter (·.fields.Open)).foldl upsert p
  wanted.foldl syncDeps p

end Projection

end BotCord.Spaces
