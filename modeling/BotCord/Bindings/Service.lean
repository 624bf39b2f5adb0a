import BotCord.Foundation.Statements
import BotCord.Kb.Path
import BotCord.Spaces.Tables

/-!
# Binding agents, statement by statement

`claim_resolve`, `_bind_agent_to_user`, `_unbind_agent_from_user` and the default of `patch_agent` (`app/routers/users.py`), as the database statements they run. An attribute of a loaded row is written by an update on the primary key, and only where it changes what was loaded. Owner roles, gifts, subscriptions and the cleanup of a daemon are left out; whether they stand against an unbinding is given with the call.
-/

namespace BotCord.Bindings

open Spaces (UserId AgentId User AgentStatus)

structure Agent where
  agentId : AgentId
  userId : Option UserId := none
  claimCode : String
  status : AgentStatus := .active
  isDefault : Bool := false
  createdAt : ℕ := 0
deriving DecidableEq

structure Store where
  users : Keyed User.id := {}
  agents : Keyed Agent.agentId := {}

abbrev Call := Program Store AgentId

def Agent.BoundTo (userId : UserId) (a : Agent) : Prop := a.userId = some userId ∧ a.status = .active
deriving Decidable

def Agent.Claimable (a : Agent) : Prop := a.userId = none ∧ a.status = .active
deriving Decidable

namespace Store

variable (s : Store)

def boundAgents (userId : UserId) : List Agent := s.agents.rows.filter (Agent.BoundTo userId ·)

def WithinQuota (user : User) : Prop := (s.boundAgents user.id).length < user.maxAgents
deriving Decidable

def agentByCode (claimCode : String) : Option Agent :=
  s.agents.rows.find? fun a => a.claimCode = claimCode ∧ a.status = .active

def ownAgent (agentId : AgentId) (userId : UserId) : Option Agent :=
  (s.agents.get? agentId).filter (Agent.BoundTo userId ·)

def otherAgents (agentId : AgentId) (userId : UserId) : List Agent :=
  (s.boundAgents userId).filter (·.agentId ≠ agentId)

/-- The agent that becomes the default after another one: the oldest. -/
def nextDefault (agentId : AgentId) (userId : UserId) : Option Agent :=
  (s.otherAgents agentId userId).argmin Agent.createdAt

def setAgent (agentId : AgentId) (f : Agent → Agent) (hf : ∀ a, (f a).agentId = a.agentId := by intro; rfl) : Store :=
  { s with agents := s.agents.modify (·.agentId = agentId) f hf }

def insertAgent (a : Agent) : Option Store :=
  if ∀ x ∈ s.agents, x.claimCode ≠ a.claimCode then (s.agents.insert? a).map fun agents => { s with agents } else none

def clearDefaults (agentIds : List AgentId) : Store :=
  { s with agents := s.agents.modify (·.agentId ∈ agentIds) fun a => { a with isDefault := false } }

end Store

/-- Whether the quota allows one more agent, and whether it is the first. -/
def quota (userId : UserId) (next : User → Bool → Call) : Call :=
  .select fun s =>
    match s.users.get? userId with
    | none => .reject
    | some user => .select fun s => .require (s.WithinQuota user) (next user (s.boundAgents userId).isEmpty)

/-- The quota allows one more agent still, and it is the first or not as before. -/
def quotaAsRead (user : User) (isFirst : Bool) (s : Store) : Bool :=
  decide (s.WithinQuota user ∧ (s.boundAgents user.id).isEmpty = isFirst)

def updateRow (agentId : AgentId) (next : Call) : Call :=
  .lock (fun s => (s.agents.get? agentId).map fun _ => agentId) fun s =>
    match s.agents.get? agentId with
    | none => .reject
    | some _ => next

/-- The agent goes to its user. -/
def Agent.bind (userId : UserId) (isDefault : Bool) (a : Agent) : Agent := { a with userId := some userId, isDefault }

/-- `UPDATE … WHERE user_id IS NULL`: the row is tested again when its lock is had. -/
def conditionalUpdate (agentId : AgentId) (user : User) (isFirst : Bool) : Call :=
  .lock (fun s => ((s.agents.get? agentId).filter (Agent.Claimable ·)).map fun _ => agentId) fun s =>
    match (s.agents.get? agentId).filter (Agent.Claimable ·) with
    | none => .reject
    | some _ => .commit (quotaAsRead user isFirst) fun s => some (s.setAgent agentId (Agent.bind user.id isFirst))

/-- Update the given rows that still belong to the user, one after the other. -/
def updateOthers (userId : UserId) (next : List AgentId → Call) : List AgentId → List AgentId → Call
  | [], updated => next updated
  | agentId :: rest, updated =>
    .lock (fun s => (s.ownAgent agentId userId).map fun _ => agentId) fun s =>
      if (s.ownAgent agentId userId).isSome then updateOthers userId next rest (updated ++ [agentId])
      else updateOthers userId next rest updated

def Agent.claim (userId : UserId) (wasDefault isDefault : Bool) (a : Agent) : Agent :=
  { a with userId := some userId, isDefault := if wasDefault = isDefault then a.isDefault else isDefault }

def IsClaimCode (claimCode : String) : Prop := "clm_".toList <+: claimCode.toList
deriving Decidable

def claimResolve (userId : UserId) (claimCode : String) : Call :=
  let claimCode := String.ofList (Kb.strip claimCode.toList)
  .require (IsClaimCode claimCode) <| .select fun s =>
    match s.agentByCode claimCode with
    | none => .reject
    | some agent =>
      .require (agent.userId = none) <| quota userId fun user isFirst => updateRow agent.agentId <|
        .commit (fun s => s.agents.get? agent.agentId = some agent ∧ quotaAsRead user isFirst s) fun s =>
          some (s.setAgent agent.agentId (Agent.claim user.id agent.isDefault isFirst))

/-- `claimCode` and `createdAt` are those of the agent if it has to be created. -/
def bindAgentToUser (userId : UserId) (agentId : AgentId) (claimCode : String) (createdAt : ℕ) : Call :=
  quota userId fun user isFirst => .select fun s =>
    match s.agents.get? agentId with
    | some agent =>
      .require (agent.status = .active) <| .require (agent.userId = none) <| conditionalUpdate agentId user isFirst
    | none =>
      -- An insert waits for another one of the same key, and fails when that is committed.
      .lock (fun s => if s.agents.get? agentId = none then some agentId else none) fun s =>
        match s.agents.get? agentId with
        | none => .commit (quotaAsRead user isFirst) (·.insertAgent
            { agentId, userId := some user.id, claimCode, isDefault := isFirst, createdAt })
        | some _ => .select fun s =>
          match s.agents.get? agentId with
          | none => .reject
          | some agent => .require (agent.userId = none) <| conditionalUpdate agentId user isFirst

def Agent.unbind (claimCode : String) (wasDefault : Bool) (a : Agent) : Agent :=
  { a with userId := none, claimCode, isDefault := if wasDefault then false else a.isDefault }

def Agent.promote (a : Agent) : Agent := { a with isDefault := true }

def unbindAgentFromUser (agentId : AgentId) (userId : UserId) (forbidden : Bool) (claimCode : String) : Call :=
  .select fun s =>
    match s.ownAgent agentId userId with
    | none => .reject
    | some agent =>
      .require (forbidden = false) <| updateRow agentId <|
        if agent.isDefault then
          .select fun s =>
            match s.nextDefault agentId userId with
            | none =>
              .commit (fun s => s.ownAgent agentId userId = some agent ∧ s.nextDefault agentId userId = none) fun s =>
                some (s.setAgent agentId (Agent.unbind claimCode true))
            | some next => updateRow next.agentId <|
              .commit (fun s => s.ownAgent agentId userId = some agent ∧ s.nextDefault agentId userId = some next) fun s =>
                some ((s.setAgent agentId (Agent.unbind claimCode true)).setAgent next.agentId Agent.promote)
        else
          .commit (fun s => s.ownAgent agentId userId = some agent) fun s =>
            some (s.setAgent agentId (Agent.unbind claimCode false))

def Agent.keepDefault (wasDefault : Bool) (a : Agent) : Agent := { a with isDefault := if wasDefault then a.isDefault else true }

/-- `patch_agent` where the body has `is_default`. -/
def makeDefault (agentId : AgentId) (userId : UserId) : Call :=
  .select fun s =>
    match s.ownAgent agentId userId with
    | none => .reject
    | some agent => .select fun s =>
      updateOthers userId (fun updated => updateRow agentId <|
        .commit (fun s => s.ownAgent agentId userId = some agent ∧ (s.otherAgents agentId userId).map (·.agentId) = updated)
          fun s => some ((s.clearDefaults updated).setAgent agentId (Agent.keepDefault agent.isDefault)))
        ((s.otherAgents agentId userId).map (·.agentId)) []

def registerAgent (agentId : AgentId) (claimCode : String) (createdAt : ℕ) : Call :=
  .lock (fun s => if s.agents.get? agentId = none then some agentId else none) fun s =>
    match s.agents.get? agentId with
    | none => .commit (fun _ => true) (·.insertAgent { agentId, claimCode, createdAt })
    | some _ => .reject

inductive Request
  | claimResolve (userId : UserId) (claimCode : String)
  | bindAgentToUser (userId : UserId) (agentId : AgentId) (claimCode : String) (createdAt : ℕ)
  | unbindAgentFromUser (agentId : AgentId) (userId : UserId) (forbidden : Bool) (claimCode : String)
  | makeDefault (agentId : AgentId) (userId : UserId)
  | registerAgent (agentId : AgentId) (claimCode : String) (createdAt : ℕ)

def Request.program : Request → Store → Call
  | .claimResolve userId claimCode, _ => Bindings.claimResolve userId claimCode
  | .bindAgentToUser userId agentId claimCode createdAt, _ => Bindings.bindAgentToUser userId agentId claimCode createdAt
  | .unbindAgentFromUser agentId userId forbidden claimCode, _ =>
    Bindings.unbindAgentFromUser agentId userId forbidden claimCode
  | .makeDefault agentId userId, _ => Bindings.makeDefault agentId userId
  | .registerAgent agentId claimCode createdAt, _ => Bindings.registerAgent agentId claimCode createdAt

def bindings : System (Calls Store AgentId) (CallAction Request Empty) := calls Request.program fun event _ => event.elim

end BotCord.Bindings
