import BotCord.Access.Agree
import BotCord.Attention.Gates

/-!
# The decisions of an inbox

`decide_inbox` of `hub/services/access_inbox.py`: for each message of a poll whether it wakes the agent, how far it may make the agent act, and on what that rests. The whole batch shares the selects, and the attention of a room is resolved once.
-/

namespace BotCord.Inbox

open Access (PrincipalId AccessEdge Graph Decision Reason orConsult publicPrincipalId decideExecutionMany)
open Attention (Library RoomId AgentRoomPolicyOverride AgentSenderReplyRule EffectiveAttention Rules isOwnerChat)
open Policy (isDirectRoomId)

abbrev HubMsgId := String

structure InboxItem where
  hubMsgId : HubMsgId
  senderId : PrincipalId
  roomId : Option RoomId := none
  sourceType : Option String := none
  mentioned : Bool := false
  text : String := ""

/-- The messages of one poll: rows of a table in which `hub_msg_id` is unique. -/
structure Batch where
  items : List InboxItem
  distinct : (items.map (·.hubMsgId)).Nodup := by decide

/-- What the decision reads of an access context. -/
structure AccessContext where
  active : Bool

/-- A row of `agent_sender_reply_rules`; the empty scope is every room. -/
structure ReplyRuleRow where
  agentId : PrincipalId
  senderId : PrincipalId
  roomScope : RoomId := ""
  rule : AgentSenderReplyRule

def ReplyRuleRow.key (r : ReplyRuleRow) : PrincipalId × PrincipalId × RoomId := (r.agentId, r.senderId, r.roomScope)

/-- A row of `agent_room_policy_overrides`. -/
structure OverrideRow where
  agentId : PrincipalId
  roomId : RoomId
  policy : AgentRoomPolicyOverride

def OverrideRow.key (r : OverrideRow) : PrincipalId × RoomId := (r.agentId, r.roomId)

def liveKey (e : AccessEdge) : Access.EdgeKind × PrincipalId × PrincipalId × PrincipalId :=
  (e.kind, e.fromId, e.toId, e.scopeOrgId)

/-- What the index on live edges and the projection keep of the edges: one live edge of a kind between two ends in a scope, one live ownership edge of an agent, which has one source, scopes on grants only, and the two values of a capability. -/
structure Kept (graph : Graph) : Prop where
  live_once : ∀ x ∈ graph.edges, ∀ y ∈ graph.edges,
    x.status = .active ∧ y.status = .active → liveKey x = liveKey y → x = y
  owned_once : ∀ x ∈ graph.edges, ∀ y ∈ graph.edges, x.status = .active ∧ y.status = .active →
    x.kind = .ownership ∧ y.kind = .ownership → x.toId = y.toId → x = y
  unscoped : ∀ e ∈ graph.edges, e.kind ≠ .grant → e.scopeOrgId = ""
  capability : ∀ e ∈ graph.edges, e.capability ∈ [none, some "consult", some "full"]

instance (graph : Graph) : Decidable (Kept graph) :=
  decidable_of_iff
    ((∀ x ∈ graph.edges, ∀ y ∈ graph.edges,
        x.status = .active ∧ y.status = .active → liveKey x = liveKey y → x = y) ∧
      (∀ x ∈ graph.edges, ∀ y ∈ graph.edges, x.status = .active ∧ y.status = .active →
        x.kind = .ownership ∧ y.kind = .ownership → x.toId = y.toId → x = y) ∧
      (∀ e ∈ graph.edges, e.kind ≠ .grant → e.scopeOrgId = "") ∧
      ∀ e ∈ graph.edges, e.capability ∈ [none, some "consult", some "full"])
    ⟨fun h => ⟨h.1, h.2.1, h.2.2.1, h.2.2.2⟩, fun h => ⟨h.1, h.2, h.3, h.4⟩⟩

/-- The tables that a poll of an inbox reads for its decisions. -/
structure Hub where
  graph : Graph
  rules : List ReplyRuleRow := []
  overrides : List OverrideRow := []
  kept : Kept graph := by decide +kernel
  uq_rules : (rules.map ReplyRuleRow.key).Nodup := by decide
  uq_overrides : (overrides.map OverrideRow.key).Nodup := by decide

inductive Basis
  | ownerChannel | owner | grant | grantInactive | room | connection | offer | noPath
deriving DecidableEq

structure Verdict where
  wake : Bool
  wakeReason : String
  profile : String
  basis : Basis

def ownerSourceTypes : List String :=
  ["dashboard_user_chat", "cloud_agent_run", "botcord_schedule", "cloud_gateway_ingress"]

/-- `_RANK`; any other key raises. -/
def rankOf : String → Option ℕ
  | "deny" => some 0
  | "consult" => some 1
  | "collaborator" => some 2
  | "full" => some 3
  | _ => none

/-- `_GRANT_PROFILE.get(capability or "", "consult")`. -/
def grantProfile (capability : Option String) : String :=
  if capability = some "collaborator" then "collaborator" else "consult"

/-- What the selects of a batch found, in the dictionaries that are filled from their rows. -/
structure View where
  paths : PrincipalId → Option Decision
  roomCaps : RoomId → Option String
  connCaps : PrincipalId → Option String
  offerCap : Option String
  rules : Rules

section Selects

variable (hub : Hub) (db : Access.Session hub.graph) (agentId : PrincipalId)

/-- The last active member edge of the agent to each of some rooms. -/
def roomCaps (rooms : List RoomId) (room : RoomId) : Option String :=
  ((db.scan fun e => e.kind = .member && e.status = .active && e.fromId = agentId && e.toId ∈ rooms).reverse.find?
    (·.toId = room)).map (orConsult ·.capability)

/-- The last active connection of each of some senders to the agent. -/
def connCaps (senders : Finset PrincipalId) (sender : PrincipalId) : Option String :=
  ((db.scan fun e => e.kind = .connection && e.status = .active && e.toId = agentId && e.fromId ∈ senders).reverse.find?
    (·.fromId = sender)).map (orConsult ·.capability)

def offerCap : Option String :=
  ((db.scan fun e => e.kind = .offer && e.status = .active && e.fromId = publicPrincipalId && e.toId = agentId).head?.filter
    (·.terms.direct)).map (orConsult ·.capability)

/-- The reply rules of the agent for some senders, by sender and scope. -/
def rulesOf (senders : Finset PrincipalId) : Rules := fun sender scope =>
  ((hub.rules.filter fun r => r.agentId = agentId && r.senderId ∈ senders).reverse.find?
    fun r => r.senderId = sender && r.roomScope = scope).map (·.rule)

def overrideOf (roomId : RoomId) : Option AgentRoomPolicyOverride :=
  (hub.overrides.find? fun r => r.agentId = agentId && r.roomId = roomId).map (·.policy)

def sendersOf (items : List InboxItem) : Finset PrincipalId := (items.map (·.senderId)).toFinset

def roomsOf (items : List InboxItem) : List RoomId := (items.filterMap (·.roomId)).filter (· ≠ "")

def view (items : List InboxItem) (now : ℕ) : View where
  paths := decideExecutionMany db agentId (sendersOf items) now
  roomCaps := roomCaps hub db agentId (roomsOf items)
  connCaps := connCaps hub db agentId (sendersOf items)
  offerCap := offerCap hub db agentId
  rules := rulesOf hub agentId (sendersOf items)

end Selects

def InboxItem.room (item : InboxItem) : RoomId := item.roomId.getD ""

/-- The owner's own channel, by the room or by what issued the message. -/
def InboxItem.ownerChannel (item : InboxItem) : Bool :=
  isOwnerChat item.room || item.sourceType.any (· ∈ ownerSourceTypes)

def strongest (options : List (String × Basis)) : Option (String × Basis) :=
  if options.isEmpty then some ("consult", .noPath)
  else
    match options.mapM fun o => (rankOf o.1).map fun rank => (rank, o) with
    | none => none
    | some ranked => (ranked.argmax (·.1)).map (·.2)

/-- The options of a direct message that neither ownership nor a grant decides. -/
def View.options (view : View) (senderId : PrincipalId) : List (String × Basis) :=
  [(view.connCaps senderId, Basis.connection), (view.offerCap, Basis.offer)].filterMap fun o =>
    (o.1.filter (· ≠ "")).map fun cap => (cap, o.2)

/-- How far the message may make the agent act, and on what that rests. -/
def decideProfile (view : View) (contexts : PrincipalId → Option AccessContext) (item : InboxItem) :
    Option (String × Basis) :=
  let isDm := isDirectRoomId item.room
  let path := view.paths item.senderId
  if item.ownerChannel then some ("full", .ownerChannel)
  else if path.any (·.reason = .ownership) then some ("full", .owner)
  else
    match path.filter (·.reason = .grant) with
    | some decision => some (grantProfile decision.capability, .grant)
    | none =>
      if (contexts item.senderId).any (!·.active) && (isDm || item.room = "") then some ("deny", .grantInactive)
      else if item.room ≠ "" && !isDm then some ((view.roomCaps item.room).getD "consult", .room)
      else strongest (view.options item.senderId)

/-- The attentions resolved so far, by room, and the verdicts so far, by message. -/
structure Progress where
  cache : Option RoomId → Option EffectiveAttention := fun _ => none
  out : HubMsgId → Option Verdict := fun _ => none

section Loop

variable (lib : Library) (hub : Hub) (agent : Attention.Agent) (view : View) (now : ℕ)

/-- `resolve_effective_attention` -/
def resolveEffectiveAttention (roomId : Option RoomId) : EffectiveAttention :=
  let override := (roomId.filter fun room => !isDirectRoomId room).bind (overrideOf hub agent.agentId)
  Attention.effectiveAttentionFrom lib agent (roomId.getD "") override now

def cached (cache : Option RoomId → Option EffectiveAttention) (roomId : Option RoomId) :
    EffectiveAttention × (Option RoomId → Option EffectiveAttention) :=
  match cache roomId with
  | some base => (base, cache)
  | none =>
    let base := resolveEffectiveAttention lib hub agent now roomId
    (base, Function.update cache roomId (some base))

/-- Whether the message wakes the agent, why, and the cache after it. -/
def decideWake (cache : Option RoomId → Option EffectiveAttention) (item : InboxItem) :
    (Bool × String) × (Option RoomId → Option EffectiveAttention) :=
  if isOwnerChat item.room || isDirectRoomId item.room || item.room = "" then ((true, "direct"), cache)
  else
    let base := cached lib hub agent now cache item.roomId
    let eff := Attention.attentionFor lib view.rules item.room item.senderId base.1
    let mentioned := item.mentioned || Attention.scanMention lib item.text agent.agentId agent.displayName
    (Attention.shouldWake lib eff mentioned item.text item.senderId now, base.2)

def decideItem (contexts : PrincipalId → Option AccessContext) (p : Progress) (item : InboxItem) : Option Progress :=
  match decideProfile view contexts item with
  | none => none
  | some (profile, basis) =>
    let woken := decideWake lib hub agent view now p.cache item
    let verdict : Verdict := { wake := woken.1.1, wakeReason := woken.1.2, profile := profile, basis := basis }
    some { cache := woken.2, out := Function.update p.out item.hubMsgId (some verdict) }

end Loop

/-- The verdict on every message of a batch, by its id; none if the decision of one of them raises. -/
def decideInbox (lib : Library) (hub : Hub) (db : Access.Session hub.graph) (agent : Attention.Agent) (batch : Batch)
    (contexts : PrincipalId → Option AccessContext) (now : ℕ) : Option (HubMsgId → Option Verdict) :=
  if batch.items.isEmpty then some fun _ => none
  else
    let seen := view hub db agent.agentId batch.items now
    (batch.items.foldlM (decideItem lib hub agent seen now contexts) {}).map (·.out)

end BotCord.Inbox
