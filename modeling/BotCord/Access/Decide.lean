import BotCord.Access.Graph
import Mathlib.Data.Finset.Filter

/-!
# Decisions over the access graph

`decide_direct`, `decide_room_invite` and `decide_execution_many` of `hub/services/access_decide.py`, on the graph as `ensure_current` leaves it. A decision carries its path, one hop for each edge it rests on.
-/

namespace BotCord.Access

def publicPrincipalId : PrincipalId := "pr_public"

inductive Reason
  | blocked | contactRequest | agentSendersDisabled | humanSendersDisabled | ownership | grant | connection | offer
  | roomOnly | noPath | default
deriving DecidableEq

structure Hop where
  edgeId : EdgeId
  kind : EdgeKind
  version : ℕ

structure Decision where
  allowed : Bool
  reason : Reason
  capability : Option String := none
  path : List Hop := []

/-- `_CAPABILITY_RANK.get(role or "", 0)`. -/
def capabilityRank : Option String → ℕ
  | some "consult" => 1
  | some "collaborator" => 2
  | some "full" => 3
  | _ => 0

/-- `capability or "consult"`. -/
def orConsult (capability : Option String) : String := (capability.filter (· ≠ "")).getD "consult"

def hop (e : AccessEdge) : Hop := { edgeId := e.id, kind := e.kind, version := e.version }

/-- The agent node's id and its inbound filter by sender class. -/
structure Agent where
  agentId : PrincipalId
  allowAgentSender : Bool := true
  allowHumanSender : Bool := true

variable {graph : Graph} (db : Session graph)

def ownerOf (agentId : PrincipalId) (now : Instant) : Option AccessEdge :=
  (liveEdges db (fun e => e.kind = .ownership && e.toId = agentId) now).head?

/-- Sender is the agent's owner, or another agent with the same owner. -/
def sameOwnerPath (senderId agentId : PrincipalId) (now : Instant) : Option (List AccessEdge) :=
  match ownerOf db agentId now with
  | none => none
  | some own =>
    if own.fromId = senderId then some [own]
    else if senderId.startsWith "ag_" then
      match ownerOf db senderId now with
      | some senderOwn => if senderOwn.fromId = own.fromId then some [senderOwn, own] else none
      | none => none
    else none

def blocked (agentId senderId : PrincipalId) (now : Instant) : Option AccessEdge :=
  (liveEdges db (fun e => e.kind = .block && e.fromId = agentId && e.toId = senderId) now).head?

/-- A conversation both are active members of; only the status of the edges counts. -/
def sharedConversation (a b : PrincipalId) : Option PrincipalId :=
  let mine := (db.scan fun e => e.kind = .member && e.status = .active && e.fromId = a).map (·.toId)
  ((db.scan fun e => e.kind = .member && e.status = .active && e.fromId = b && e.toId ∈ mine).map (·.toId)).head?

def senderClassAllowed (agent : Agent) (senderId : PrincipalId) : Option Reason :=
  if senderId.startsWith "ag_" && !agent.allowAgentSender then some .agentSendersDisabled
  else if senderId.startsWith "hu_" && !agent.allowHumanSender then some .humanSendersDisabled
  else none

def grantsOf (senderId agentId : PrincipalId) (now : Instant) : List AccessEdge :=
  validGrants db (liveEdges db (fun e => e.kind = .grant && e.fromId = senderId && e.toId = agentId) now) now

def rank (e : AccessEdge) : ℕ := capabilityRank e.role

def connections (senderId agentId : PrincipalId) (now : Instant) : List AccessEdge :=
  liveEdges db (fun e => e.kind = .connection && e.fromId = senderId && e.toId = agentId) now

def offers (agentId : PrincipalId) (now : Instant) : List AccessEdge :=
  liveEdges db (fun e => e.kind = .offer && e.fromId = publicPrincipalId && e.toId = agentId) now

/-- The branches of `decide_direct` below ownership and grants. -/
def decideByRelation (senderId : PrincipalId) (agent : Agent) (now : Instant) : Decision :=
  match (connections db senderId agent.agentId now).head? with
  | some conn =>
    { allowed := true, reason := .connection, capability := some (orConsult conn.capability), path := [hop conn] }
  | none =>
    match (offers db agent.agentId now).head?.filter (·.terms.direct) with
    | some offer =>
      { allowed := true, reason := .offer, capability := some (orConsult offer.capability), path := [hop offer] }
    | none =>
      -- A shared room does not open a direct conversation.
      match sharedConversation db senderId agent.agentId with
      | some _ => { allowed := false, reason := .roomOnly }
      | none => { allowed := false, reason := .noPath }

/-- May the sender message the agent directly? -/
def decideDirect (senderId : PrincipalId) (agent : Agent) (contactRequest : Bool) (now : Instant) : Decision :=
  match blocked db agent.agentId senderId now with
  | some blk => { allowed := false, reason := .blocked, path := [hop blk] }
  | none =>
    if contactRequest then { allowed := true, reason := .contactRequest, capability := some "consult" }
    else
      match senderClassAllowed agent senderId with
      | some denied => { allowed := false, reason := denied }
      | none =>
        match sameOwnerPath db senderId agent.agentId now with
        | some path => { allowed := true, reason := .ownership, capability := some "full", path := path.map hop }
        | none =>
          match (grantsOf db senderId agent.agentId now).argmax rank with
          | some best => { allowed := true, reason := .grant, capability := best.role, path := [hop best] }
          | none => decideByRelation db senderId agent now

/-- May the inviter pull the agent into a conversation? -/
def decideRoomInvite (inviterId : PrincipalId) (agent : Agent) (now : Instant) : Decision :=
  match blocked db agent.agentId inviterId now with
  | some blk => { allowed := false, reason := .blocked, path := [hop blk] }
  | none =>
    match senderClassAllowed agent inviterId with
    | some denied => { allowed := false, reason := denied }
    | none =>
      match sameOwnerPath db inviterId agent.agentId now with
      | some path => { allowed := true, reason := .ownership, capability := some "full", path := path.map hop }
      | none =>
        match (offers db agent.agentId now).head?.filter (·.terms.roomInvite) with
        | some offer => { allowed := true, reason := .offer, capability := some "consult", path := [hop offer] }
        | none =>
          match (connections db inviterId agent.agentId now).head? with
          | some conn =>
            { allowed := true, reason := .connection, capability := some "consult", path := [hop conn] }
          | none => { allowed := false, reason := .noPath }

/-- The owners of the sending agents, by agent; a later row replaces an earlier one. -/
def senderOwners (senderIds : Finset PrincipalId) (now : Instant) : PrincipalId → Option AccessEdge :=
  let senderAgents := senderIds.filter (·.startsWith "ag_")
  let rows := liveEdges db (fun e => e.kind = .ownership && e.toId ∈ senderAgents) now
  fun sid => rows.reverse.find? (·.toId = sid)

def bestGrants (agentId : PrincipalId) (senderIds : Finset PrincipalId) (now : Instant) :
    PrincipalId → Option AccessEdge :=
  let humans := senderIds.filter (·.startsWith "hu_")
  let rows := validGrants db (liveEdges db (fun e => e.kind = .grant && e.toId = agentId && e.fromId ∈ humans) now) now
  rows.foldl (Select.keepBest (·.fromId) rank) fun _ => none

/-- The last two branches of the loop of `decide_execution_many`. -/
def decideByGrant (best : Option AccessEdge) : Decision :=
  match best with
  | some best => { allowed := true, reason := .grant, capability := best.role, path := [hop best] }
  | none => { allowed := false, reason := .default }

/-- How far may each sender's message make the agent act? -/
def decideExecutionMany (agentId : PrincipalId) (senderIds : Finset PrincipalId) (now : Instant)
    (sid : PrincipalId) : Option Decision :=
  if sid ∉ senderIds then none
  else
    let own := ownerOf db agentId now
    let owners := if own.isSome then senderOwners db senderIds now else fun _ => none
    let byGrant := decideByGrant (bestGrants db agentId senderIds now sid)
    match own with
    | none => some byGrant
    | some own =>
      if own.fromId = sid then
        some { allowed := true, reason := .ownership, capability := some "full", path := [hop own] }
      else
        match owners sid with
        | some senderOwn =>
          if senderOwn.fromId = own.fromId then
            some { allowed := true, reason := .ownership, capability := some "full", path := [hop senderOwn, hop own] }
          else some byGrant
        | none => some byGrant

end BotCord.Access
