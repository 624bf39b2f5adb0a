import BotCord.Kb.Path
import BotCord.Spaces.Service

/-!
# Binding agents to users

`_bind_agent_to_user`, `claim_resolve` and `_unbind_agent_from_user` of `app/routers/users.py`. What the checks of an unbinding find in the tables of the wallet, of the subscriptions and of the cloud is given with the call.
-/

namespace BotCord.Spaces

open Transaction

def insertAgent (a : Agent) : Tx Unit := insertRow (·.agents) (fun agents t => { t with agents }) a

namespace Tables

variable (t : Tables)

/-- An agent is bound to a user, which claims it. -/
def bind (agentId : AgentId) (userId : UserId) (now : Instant) : Tables :=
  { t with
    agents := t.agents.modify (·.agentId = agentId) fun a => { a with userId := some userId, claimedAt := some now } }

def unbind (agentId : AgentId) (claimCode : String) : Tables :=
  { t with
    agents := t.agents.modify (·.agentId = agentId) fun a =>
      { a with userId := none, claimedAt := none, claimCode } }

end Tables

def requireQuota (userId : UserId) (missing : Error) : Tx Unit := do
  match (← view).users.get? userId with
  | none => throw missing
  | some user =>
    require (((← view).boundAgents userId).length < user.maxAgents)
      (.http s!"Agent quota exceeded (max {user.maxAgents})" 400)

/-- `claimCode` is the code of the agent if it has to be created. -/
def bindAgentToUser (userId : UserId) (agentId : AgentId) (claimCode : String) (now : Instant) : Tx Unit := do
  requireQuota userId (.http "User not found" 404)
  match (← view).agents.get? agentId with
  | none => insertAgent { agentId, userId := some userId, claimedAt := some now, claimCode }
  | some agent =>
    require (agent.status = .active) (.http "agent_deleted" 410)
    require (agent.userId = none) (.http "Agent already claimed" 409)
    modifyView (·.bind agentId userId now)

def claimAgent (userId : UserId) (agentId : AgentId) (claimCode : String) (now : Instant) : Tx Unit := do
  require ("ag_".toList <+: agentId.toList) (.http "agent_id must start with 'ag_'" 400)
  bindAgentToUser userId agentId claimCode now

def claimResolve (userId : UserId) (claimCode : String) (now : Instant) : Tx Unit := do
  let claimCode := String.ofList (Kb.strip claimCode.toList)
  require ("clm_".toList <+: claimCode.toList) (.http "Invalid claim code format" 400)
  match (← view).agents.rows.find? fun a => a.claimCode = claimCode ∧ a.status = .active with
  | none => throw (.http "Invalid claim code" 404)
  | some agent =>
    require (agent.userId = none) (.http "Agent already claimed" 409)
    requireQuota userId .noResultFound
    modifyView (·.bind agent.agentId userId now)

structure UnbindChecks where
  cloudAgent : Bool := false
  walletFunded : Bool := false
  productSubscribers : Bool := false
  pendingObligations : Bool := false
deriving DecidableEq

def unbindAgentFromUser (agentId : AgentId) (userId : UserId) (checks : UnbindChecks) (claimCode : String) : Tx Unit := do
  match (← view).agents.get? agentId with
  | none => throw (.http "Agent not found" 404)
  | some agent =>
    require (agent.userId = some userId ∧ agent.status = .active) (.http "Agent not found" 404)
    require (checks.cloudAgent = false) (.http "cloud_agent_requires_cloud_delete" 409)
    require (checks.walletFunded = false) (.http "wallet_not_empty" 409)
    require (checks.productSubscribers = false) (.http "product_has_subscribers" 409)
    require (checks.pendingObligations = false) (.http "pending_obligations" 409)
    modifyView (·.unbind agentId claimCode)

def signUp (id : UserId) (hex : String) : Tx Unit := do
  require (∀ x ∈ (← view).users.rows, x.humanId ≠ "hu_" ++ hex) .integrity
  insertRow (·.users) (fun users t => { t with users }) { id, humanId := "hu_" ++ hex }

def setUser (id : UserId) (active : Bool) (bannedAt : Option Instant) : Tx Unit :=
  modifyView fun t => { t with users := t.users.modify (·.id = id) fun u => { u with active, bannedAt } }

def registerAgent (hex : String) (claimCode : String) : Tx Unit := insertAgent { agentId := "ag_" ++ hex, claimCode }

def setAgentStatus (agentId : AgentId) (status : AgentStatus) : Tx Unit :=
  modifyView fun t => { t with agents := t.agents.modify (·.agentId = agentId) fun a => { a with status } }

def setSpaceStatus (id : SpaceId) (status : SpaceStatus) : Tx Unit :=
  modifyView fun t => { t with spaces := t.spaces.modify (·.id = id) fun s => { s with status } }

end BotCord.Spaces
