import BotCord.Delivery.Hub
import BotCord.Spaces.Grants

/-!
# Requests for access

`request_access`, `approve_request`, `reject_request` and `cancel_request` of `hub/services/team_access.py` with `create_grant` and `revoke_grant` of `hub/services/agent_access.py`, each a transaction that sees in every statement what is committed by then. Of a row that it loaded a transaction writes the columns that it changed, under the lock of that row and with the commit. `create_grant` revokes in one UPDATE: it looks for rows as they are when it starts, takes their locks one after another, and looks at each again once it has the lock.
-/

namespace BotCord.Requests

open Delivery (column)
open Spaces (UserId AgentId SpaceId GrantId Instant GrantRole AgentAccessGrant GrantForm Tables Tx Error Replaces
  organizationSpace requireMembership requireAgentMembership requireOwnedOrgAgent)
open Transaction

abbrev RequestId := ℕ

inductive RequestStatus
  | pending | approved | rejected | cancelled
deriving DecidableEq

structure AgentAccessRequest where
  id : RequestId
  spaceId : SpaceId
  agentId : AgentId
  requesterUserId : UserId
  requestedRole : GrantRole
  message : Option String := none
  status : RequestStatus := .pending
  decidedByUserId : Option UserId := none
  decidedAt : Option Instant := none
  grantId : Option GrantId := none

/-- The columns of `uq_access_requests_pending`. -/
def AgentAccessRequest.key (r : AgentAccessRequest) : SpaceId × AgentId × UserId := (r.spaceId, r.agentId, r.requesterUserId)

/-- `_ROLE_RANK`. -/
def roleRank : GrantRole → ℕ
  | .consultant => 1
  | .collaborator => 2

/-- `_owned_org_agent`: who the agent belongs to in the organization. -/
def ownedOrgAgent (spaceId : SpaceId) (agentId : AgentId) : Tx UserId := do
  let membership ← requireAgentMembership spaceId agentId
  match (← view).userMemberships.get? membership.sponsorUserMembershipId with
  | none => throw .noResultFound
  | some sponsor => return sponsor.userId

/-- What `request_access` checks, where `active` is the role of the grant that the requester has. -/
def checkRequest (spaceId : SpaceId) (userId : UserId) (agentId : AgentId) (role : String) (active : Option GrantRole) :
    Tx GrantRole := do
  match GrantRole.ofText role with
  | none => throw (.http "invalid_role" 422)
  | some role =>
    organizationSpace spaceId
    let _ ← requireMembership spaceId userId
    let ownerId ← ownedOrgAgent spaceId agentId
    require (ownerId ≠ userId) (.http "cannot_request_own_agent" 422)
    require (∀ held ∈ active, roleRank held < roleRank role) (.http "access_already_granted" 409)
    return role

def checkOwner (spaceId : SpaceId) (userId : UserId) (agentId : AgentId) : Tx Unit := do
  let ownerId ← ownedOrgAgent spaceId agentId
  require (ownerId = userId) (Spaces.reject "agent_owner_required")

/-- `create_grant` up to its UPDATE, with the row that it is going to insert. -/
def planGrant (spaceId : SpaceId) (actorId : UserId) (form : GrantForm) (id : GrantId) (now : Instant) :
    Tx AgentAccessGrant := do
  match GrantRole.ofText form.role with
  | none => throw (.http "invalid_role" 422)
  | some role =>
    organizationSpace spaceId
    let _ ← requireMembership spaceId actorId
    let agentMembership ← requireOwnedOrgAgent spaceId actorId form.agentId
    require (form.granteeUserId ≠ actorId) (.http "cannot_grant_self" 422)
    match ← attempt (requireMembership spaceId form.granteeUserId) with
    | .error _ => throw (.http "grantee_not_member" 404)
    | .ok granteeMembership =>
      require (∀ expiresAt ∈ form.expiresAt, now < expiresAt) (.http "expires_in_past" 422)
      return {
        id, spaceId, agentId := form.agentId, agentMembershipId := agentMembership.id
        agentMembershipVersion := agentMembership.version, granteeUserId := form.granteeUserId
        granteeMembershipId := granteeMembership.id, granteeMembershipVersion := granteeMembership.version, role
        workspacePath := form.workspacePath.filter (· ≠ ""), allowedCommands := form.allowedCommands
        expiresAt := form.expiresAt, createdByUserId := actorId }

/-- `revoke_grant` up to its write. -/
def checkRevoke (spaceId : SpaceId) (actorId : UserId) (grantId : GrantId) : Tx AgentAccessGrant := do
  match (← view).grants.get? grantId with
  | none => throw (.http "grant_not_found" 404)
  | some grant =>
    require (grant.spaceId = spaceId) (.http "grant_not_found" 404)
    let _ ← requireMembership spaceId actorId
    require (grant.createdByUserId = actorId) (Spaces.reject "agent_owner_required")
    return grant

theorem createGrant_eq (spaceId : SpaceId) (actorId : UserId) (form : GrantForm) (id : GrantId) (now : Instant) :
    Spaces.createGrant spaceId actorId form id now = do
      let grant ← planGrant spaceId actorId form id now
      modifyView (·.revokeGrants (Replaces grant) now)
      Spaces.insertRow (·.grants) (fun grants t => { t with grants }) grant
      return id := by
  unfold Spaces.createGrant planGrant
  cases GrantRole.ofText form.role with
  | none => rfl
  | some role =>
    simp only [bind_assoc]
    refine congrArg (bind _) (funext fun _ => congrArg (bind _) (funext fun _ => congrArg (bind _) (funext fun m =>
      congrArg (bind _) (funext fun _ => congrArg (bind _) (funext fun answer => ?_)))))
    cases answer with
    | error => rfl
    | ok => simp only [bind_assoc, pure_bind]

namespace AgentAccessRequest

variable (r loaded : AgentAccessRequest)

def rewrite (requestedRole : GrantRole) (message : Option String) : AgentAccessRequest :=
  { r with
    requestedRole := column loaded.requestedRole requestedRole r.requestedRole
    message := column loaded.message message r.message }

def decide (status : RequestStatus) (decidedByUserId : Option UserId) (now : Instant) (grantId : Option GrantId) :
    AgentAccessRequest :=
  { r with
    status := column loaded.status status r.status
    decidedByUserId := column loaded.decidedByUserId decidedByUserId r.decidedByUserId
    decidedAt := column loaded.decidedAt (some now) r.decidedAt
    grantId := column loaded.grantId grantId r.grantId }

theorem id_rewrite (role : GrantRole) (message : Option String) : (r.rewrite loaded role message).id = r.id := rfl

theorem id_decide (status : RequestStatus) (decidedBy : Option UserId) (now : Instant) (grantId : Option GrantId) :
    (r.decide loaded status decidedBy now grantId).id = r.id := rfl

end AgentAccessRequest

structure ApproveForm where
  role : Option String := none
  workspacePath : Option String := none
  allowedCommands : List String := []
  expiresAt : Option Instant := none

/-- The grant that a request asks for. -/
def ApproveForm.grant (f : ApproveForm) (loaded : AgentAccessRequest) : GrantForm where
  agentId := loaded.agentId
  granteeUserId := loaded.requesterUserId
  role := (f.role.filter (· ≠ "")).getD loaded.requestedRole.text
  expiresAt := f.expiresAt
  workspacePath := f.workspacePath
  allowedCommands := f.allowedCommands

structure Replacement where
  grant : AgentAccessGrant
  request : Option AgentAccessRequest
  /-- When the UPDATE ran. -/
  revokedAt : Instant
  /-- The grants that it revokes, whose locks it has. -/
  revoked : List GrantId := []

inductive Call
  | requestAccess (spaceId : SpaceId) (userId : UserId) (agentId : AgentId) (role : String) (message : Option String)
    (active : Option GrantRole)
  | existing (spaceId : SpaceId) (userId : UserId) (agentId : AgentId) (role : GrantRole) (message : Option String)
  | rewriteCommit (loaded : AgentAccessRequest) (role : GrantRole) (message : Option String)
  | insert (row : AgentAccessRequest)
  | insertCommit (row : AgentAccessRequest)
  | approve (spaceId : SpaceId) (userId : UserId) (requestId : RequestId) (form : ApproveForm)
  | approveOwner (userId : UserId) (loaded : AgentAccessRequest) (form : ApproveForm)
  | reject (spaceId : SpaceId) (userId : UserId) (requestId : RequestId)
  | rejectOwner (userId : UserId) (loaded : AgentAccessRequest)
  | cancel (spaceId : SpaceId) (userId : UserId) (requestId : RequestId)
  | decideCommit (loaded : AgentAccessRequest) (status : RequestStatus) (decidedBy : Option UserId) (now : Instant)
  | createGrant (spaceId : SpaceId) (actorId : UserId) (form : GrantForm) (request : Option AgentAccessRequest)
  | update (r : Replacement)
  /-- The UPDATE has found rows, and takes their locks. -/
  | lock (r : Replacement) (rest : List GrantId)
  | grantCommit (r : Replacement) (now : Instant)
  | revokeGrant (spaceId : SpaceId) (actorId : UserId) (grantId : GrantId)
  | revokeCommit (loaded : AgentAccessGrant) (now : Instant)

structure Task where
  id : ℕ
  call : Call

def Task.goto (t : Task) (call : Call) : Task := { t with call }

theorem Task.id_goto (call : Call) (t : Task) : (t.goto call).id = t.id := rfl

/-- A transaction that took a request as pending has committed what it made of it. -/
structure Decision where
  requestId : RequestId
  status : RequestStatus
  grantId : Option GrantId := none

structure Hub where
  /-- The organizations, and the grants. -/
  tables : Tables := {}
  requests : Keyed AgentAccessRequest.id := {}
  now : Instant := 0
  /-- Ids of requests and grants that were drawn are below. -/
  drawn : ℕ := 0
  /-- The latest first. -/
  log : List Decision := []
  calls : Keyed Task.id := {}

inductive Action
  | tick (seconds : ℕ)
  | requestAccess (i : ℕ) (spaceId : SpaceId) (userId : UserId) (agentId : AgentId) (role : String)
    (message : Option String) (active : Option GrantRole)
  | approveRequest (i : ℕ) (spaceId : SpaceId) (userId : UserId) (requestId : RequestId) (form : ApproveForm)
  | rejectRequest (i : ℕ) (spaceId : SpaceId) (userId : UserId) (requestId : RequestId)
  | cancelRequest (i : ℕ) (spaceId : SpaceId) (userId : UserId) (requestId : RequestId)
  | createGrant (i : ℕ) (spaceId : SpaceId) (actorId : UserId) (form : GrantForm)
  | revokeGrant (i : ℕ) (spaceId : SpaceId) (actorId : UserId) (grantId : GrantId)
  /-- The next statement of a call. -/
  | next (i : ℕ)
  /-- A transaction is rolled back. -/
  | abort (i : ℕ)

namespace Hub

variable (d : Hub) (i : ℕ)

def begin (call : Call) : Option Hub := (d.calls.insert? ⟨i, call⟩).map fun calls => { d with calls }

def goto (call : Call) : Hub := { d with calls := d.calls.modify (·.id = i) (·.goto call) (Task.id_goto call) }

def finish : Hub := { d with calls := d.calls.remove (·.id = i) }

def ask {α : Type} (x : Tx α) : Except Error α := (exec x ⟨d.tables, d.tables⟩).1

/-- A call goes on after a check, or is refused and ends. -/
def check {α : Type} (x : Except Error α) (f : α → Hub) : Hub :=
  match x with
  | .ok a => f a
  | .error _ => d.finish i

/-- `_pending_request`. -/
def pendingRequest (spaceId : SpaceId) (requestId : RequestId) : Except Error AgentAccessRequest :=
  match (d.requests.get? requestId).filter (·.spaceId = spaceId) with
  | none => .error (.http "request_not_found" 404)
  | some r => if r.status = .pending then .ok r else .error (.http "request_not_pending" 409)

/-- The grants of the pair that are not revoked. -/
def replaced (grant : AgentAccessGrant) : List GrantId := (d.tables.grants.rows.filter (Replaces grant)).map AgentAccessGrant.id

/-- `list_grants`. -/
def listGrants (spaceId : SpaceId) (agentId : AgentId) : List AgentAccessGrant :=
  d.tables.grants.rows.filter fun g => g.spaceId = spaceId ∧ g.agentId = agentId ∧ g.revokedAt = none

end Hub

def Call.locks : Call → List GrantId
  | .lock r _ | .grantCommit r _ => r.revoked
  | _ => []

def Call.inserted? : Call → Option AgentAccessRequest
  | .insertCommit row => some row
  | _ => none

namespace Hub

variable (d : Hub) (i : ℕ)

def Locked (grantId : GrantId) : Prop := ∃ t ∈ d.calls, t.id ≠ i ∧ grantId ∈ t.call.locks
deriving Decidable

def Inserting (row : AgentAccessRequest) : Prop := ∃ t ∈ d.calls, ∃ other ∈ t.call.inserted?, other.key = row.key
deriving Decidable

def Taken (row : AgentAccessRequest) : Prop := ∃ r ∈ d.requests, r.status = .pending ∧ r.key = row.key
deriving Decidable

def decide (loaded : AgentAccessRequest) (status : RequestStatus) (decidedBy : Option UserId) (now : Instant)
    (grantId : Option GrantId) : Hub :=
  { d with
    requests := d.requests.modify (·.id = loaded.id) (·.decide loaded status decidedBy now grantId) fun r =>
      r.id_decide loaded status decidedBy now grantId
    log := ⟨loaded.id, status, grantId⟩ :: d.log }

/-- A grant is committed, with the revocation of those it replaces. -/
def putGrant (r : Replacement) : Option Hub :=
  let revoked := d.tables.revokeGrants (·.id ∈ r.revoked) r.revokedAt
  (revoked.grants.insert? r.grant).map fun grants => { d with tables := { revoked with grants } }

/-- The next statement of a call. -/
def next : Call → Option Hub
  | .requestAccess spaceId userId agentId role message active =>
    some (d.check i (d.ask (checkRequest spaceId userId agentId role active)) fun role =>
      d.goto i (.existing spaceId userId agentId role message))
  | .existing spaceId userId agentId role message =>
    match d.requests.rows.find? fun r => r.key = (spaceId, agentId, userId) ∧ r.status = .pending with
    | some loaded => some (d.goto i (.rewriteCommit loaded role message))
    | none =>
      some ({ d with drawn := d.drawn + 1 }.goto i
        (.insert { id := d.drawn, spaceId, agentId, requesterUserId := userId, requestedRole := role, message }))
  | .rewriteCommit loaded role message =>
    some ({ d with
      requests := d.requests.modify (·.id = loaded.id) (·.rewrite loaded role message) fun r =>
        r.id_rewrite loaded role message }.finish i)
  | .insert row =>
    -- The index makes it wait for an insert under its key, and fail on a row that is there.
    if d.Inserting row then none
    else if d.Taken row then some (d.finish i)
    else some (d.goto i (.insertCommit row))
  | .insertCommit row => (d.requests.insert? row).map fun requests => { d with requests }.finish i
  | .approve spaceId userId requestId form =>
    some (d.check i (d.pendingRequest spaceId requestId) fun loaded => d.goto i (.approveOwner userId loaded form))
  | .approveOwner userId loaded form =>
    some (d.check i (d.ask (checkOwner loaded.spaceId userId loaded.agentId)) fun _ =>
      d.goto i (.createGrant loaded.spaceId userId (form.grant loaded) (some loaded)))
  | .reject spaceId userId requestId =>
    some (d.check i (d.pendingRequest spaceId requestId) fun loaded => d.goto i (.rejectOwner userId loaded))
  | .rejectOwner userId loaded =>
    some (d.check i (d.ask (checkOwner loaded.spaceId userId loaded.agentId)) fun _ =>
      d.goto i (.decideCommit loaded .rejected (some userId) d.now))
  | .cancel spaceId userId requestId =>
    some (d.check i (d.pendingRequest spaceId requestId) fun loaded =>
      if loaded.requesterUserId = userId then d.goto i (.decideCommit loaded .cancelled loaded.decidedByUserId d.now)
      else d.finish i)
  | .decideCommit loaded status decidedBy now => some ((d.decide loaded status decidedBy now none).finish i)
  | .createGrant spaceId actorId form request =>
    some (d.check i (d.ask (planGrant spaceId actorId form d.drawn d.now)) fun grant =>
      { d with drawn := d.drawn + 1 }.goto i (.update { grant, request, revokedAt := d.now }))
  | .update r => some (d.goto i (.lock { r with revokedAt := d.now } (d.replaced r.grant)))
  | .lock r (grantId :: rest) =>
    if d.Locked i grantId then none
    else if grantId ∈ d.replaced r.grant then some (d.goto i (.lock { r with revoked := grantId :: r.revoked } rest))
    else some (d.goto i (.lock r rest))
  | .lock r [] => some (d.goto i (.grantCommit r d.now))
  | .grantCommit r now =>
    (d.putGrant r).map fun d =>
      (match r.request with
        | none => d
        | some loaded => d.decide loaded .approved (some r.grant.createdByUserId) now (some r.grant.id)).finish i
  | .revokeGrant spaceId actorId grantId =>
    some (d.check i (d.ask (checkRevoke spaceId actorId grantId)) fun loaded =>
      if loaded.revokedAt = none then d.goto i (.revokeCommit loaded d.now) else d.finish i)
  | .revokeCommit loaded now =>
    if d.Locked i loaded.id then none
    else some ({ d with tables := d.tables.revokeGrants (·.id = loaded.id) now }.finish i)

end Hub

/-- The Hub with any number of transactions, of which each sees what the others have committed. -/
def hub : System Hub Action where
  step d
    | .tick seconds => some { d with now := d.now + seconds }
    | .requestAccess i spaceId userId agentId role message active =>
      d.begin i (.requestAccess spaceId userId agentId role message active)
    | .approveRequest i spaceId userId requestId form => d.begin i (.approve spaceId userId requestId form)
    | .rejectRequest i spaceId userId requestId => d.begin i (.reject spaceId userId requestId)
    | .cancelRequest i spaceId userId requestId => d.begin i (.cancel spaceId userId requestId)
    | .createGrant i spaceId actorId form => d.begin i (.createGrant spaceId actorId form none)
    | .revokeGrant i spaceId actorId grantId => d.begin i (.revokeGrant spaceId actorId grantId)
    | .next i => (d.calls.get? i).bind fun t => d.next i t.call
    | .abort i => (d.calls.get? i).map fun _ => d.finish i

end BotCord.Requests
