import BotCord.Foundation.PlainObject
import BotCord.Gateway.Message
import Mathlib.Data.List.ReduceOption

/-!
# The execution policy

`packages/daemon/src/gateway/execution-policy.ts`: which profile a turn runs with. The Hub's own decision is executed when every message of the turn carries one; otherwise the daemon decides by the senders, the grants, the team marks and the route.
-/

namespace BotCord.Gateway

def OWNER_CHAT_PREFIX : String := "rm_oc_"

def OWNER_SOURCE_TYPES : List String :=
  ["dashboard_user_chat", "cloud_agent_run", "botcord_schedule", "cloud_gateway_ingress"]

def RESTRICTION_CAPABLE_RUNTIMES : List String := ["claude-code", "codex", "gemini", "hermes-agent", "deepseek-tui"]

def COLLABORATOR_CAPABLE_RUNTIMES : List String := ["claude-code", "codex"]

inductive GrantRole
  | consultant | collaborator
deriving DecidableEq

structure TurnAccessGrant where
  grantId : String
  spaceId : String
  role : GrantRole
  requesterId : String
  workspacePath : Option String
  allowedCommands : List String
deriving DecidableEq

inductive RefusalReason
  | grantInactive | runtimeUnsupported | hubDenied
deriving DecidableEq

inductive TurnExecution
  | default
  | restricted (grant : Option TurnAccessGrant)
  | collaborator (grant : TurnAccessGrant)
  | refused (reason : RefusalReason) (grant : Option TurnAccessGrant)
deriving DecidableEq

/-- The messages of a turn: the batch, or the message itself. -/
def inboundEntries (msg : GatewayInboundMessage) : List (Option InboxMessage) :=
  match msg.raw.bind Raw.batch with
  | some (first :: rest) => (first :: rest).map some
  | _ => [msg.raw.map Raw.toInboxMessage]

def entryOwnerTrusted (entry : Option InboxMessage) : Bool :=
  entry.any fun e => e.senderSameOwner = some true || e.sourceType.any (· ∈ OWNER_SOURCE_TYPES)

/-- What `profile in HUB_PROFILE_RANK` admits: the four profiles, and every name that objects inherit. -/
inductive HubExecutionProfile
  | deny | consult | collaborator | full
  | inherited
deriving DecidableEq

def hubExecutionProfile (profile : String) : Option HubExecutionProfile :=
  if profile = "deny" then some .deny
  else if profile = "consult" then some .consult
  else if profile = "collaborator" then some .collaborator
  else if profile = "full" then some .full
  else if profile ∈ inheritedNames then some .inherited
  else none

structure EntryHubDecision where
  wake : Bool
  profile : HubExecutionProfile
  basis : String

def readHubDecision (entry : Option InboxMessage) : Option EntryHubDecision :=
  (entry.bind InboxMessage.hubDecision).bind fun d =>
    match d.wake, d.profile.bind hubExecutionProfile with
    | some wake, some profile => some { wake, profile, basis := d.basis.getD "" }
    | _, _ => none

structure EntryGrant where
  grant : TurnAccessGrant
  active : Bool

def readAccessContext (entry : Option InboxMessage) : Option EntryGrant :=
  (entry.bind InboxMessage.accessContext).bind fun c =>
    match c.grantId, c.requesterId with
    | some grantId, some requesterId => some {
        active := c.active = some true
        grant := {
          grantId, requesterId
          spaceId := c.spaceId.getD ""
          role := if c.role = some "collaborator" then .collaborator else .consultant
          workspacePath := c.workspacePath.filter (· ≠ "")
          allowedCommands := (c.allowedCommands.getD []).reduceOption } }
    | _, _ => none

def entryTeamRestricted (entry : Option InboxMessage) : Bool :=
  (entry.bind InboxMessage.spaceContext).any (·.restricted = some true)

/-- The decisions for every entry, if none lacks one. -/
def hubDecisions (msg : GatewayInboundMessage) : Option (List EntryHubDecision) :=
  if (inboundEntries msg).all fun entry => (readHubDecision entry).isSome then
    some ((inboundEntries msg).filterMap readHubDecision)
  else none

/-- `HUB_PROFILE_RANK`; what is inherited is no number. -/
def hubProfileRank : HubExecutionProfile → Option ℕ
  | .deny => some 0
  | .consult => some 1
  | .collaborator => some 2
  | .full => some 3
  | .inherited => none

/-- `a < b` of two ranks, which is false of what is no number. Two inherited members are compared as texts; which of them is the lower makes no difference to the turn. -/
def rankBelow : Option ℕ → Option ℕ → Bool
  | some i, some j => i < j
  | _, _ => false

def weaker (a b : EntryHubDecision) : EntryHubDecision :=
  if rankBelow (hubProfileRank b.profile) (hubProfileRank a.profile) then b else a

def weakest (decisions : List EntryHubDecision) (hne : decisions ≠ []) : EntryHubDecision :=
  decisions.tail.foldl weaker (decisions.head hne)

def restrictedOrRefused (route : GatewayRoute) (grant : Option TurnAccessGrant) : TurnExecution :=
  if route.runtime ∈ RESTRICTION_CAPABLE_RUNTIMES then .restricted grant else .refused .runtimeUnsupported grant

/-- The grants behind the decisions: only a decision on the basis of a grant inherits one. -/
def decisionGrants (msg : GatewayInboundMessage) (decisions : List EntryHubDecision) : List (Option EntryGrant) :=
  List.zipWith (fun entry d => if d.basis = "grant" then readAccessContext entry else none) (inboundEntries msg) decisions

def sameActiveGrant (contexts : List (Option EntryGrant)) (latest : EntryGrant) : Bool :=
  latest.active && contexts.all fun context => context.any (·.grant.grantId = latest.grant.grantId)

def fromHubDecisions (msg : GatewayInboundMessage) (decisions : List EntryHubDecision) (hne : decisions ≠ [])
    (route : GatewayRoute) : TurnExecution :=
  let contexts := decisionGrants msg decisions
  let latest := contexts.reduceOption.getLast?
  let grant := latest.map EntryGrant.grant
  match (weakest decisions hne).profile with
  | .deny =>
    .refused (if (weakest decisions hne).basis = "grant_inactive" then .grantInactive else .hubDenied) grant
  | .consult => restrictedOrRefused route grant
  | .collaborator =>
    match latest with
    | some latest =>
      if sameActiveGrant contexts latest ∧ route.runtime ∈ COLLABORATOR_CAPABLE_RUNTIMES then .collaborator latest.grant
      else restrictedOrRefused route grant
    | none => restrictedOrRefused route grant
  | .full | .inherited =>
    if (decisions.all fun d => d.basis = "owner" || d.basis = "owner_channel") = false ∧
        route.nonOwnerExecution = some .restricted then restrictedOrRefused route grant
    else .default

def isOwnerTrustedInbound (msg : GatewayInboundMessage) (botcordChannel : Bool) : Bool :=
  !botcordChannel || startsWith msg.conversation.id OWNER_CHAT_PREFIX || (inboundEntries msg).all entryOwnerTrusted

def wantsRestriction (msg : GatewayInboundMessage) (route : GatewayRoute) (botcordChannel : Bool) : Bool :=
  route.nonOwnerExecution = some .restricted && !isOwnerTrustedInbound msg botcordChannel

def isRestrictedTurn (msg : GatewayInboundMessage) (route : GatewayRoute) (botcordChannel : Bool) : Bool :=
  wantsRestriction msg route botcordChannel && route.runtime ∈ RESTRICTION_CAPABLE_RUNTIMES

def fromGrants (entries : List (Option InboxMessage)) (latest : EntryGrant) (withGrant : List EntryGrant)
    (route : GatewayRoute) : TurnExecution :=
  if withGrant.any fun c => !c.active then .refused .grantInactive (some latest.grant)
  else if latest.grant.role = .collaborator ∧ withGrant.length = entries.length ∧
      (withGrant.all fun c => c.grant.grantId = latest.grant.grantId) ∧
      route.runtime ∈ COLLABORATOR_CAPABLE_RUNTIMES then .collaborator latest.grant
  else restrictedOrRefused route (some latest.grant)

def fromLocalRules (msg : GatewayInboundMessage) (route : GatewayRoute) (botcordChannel : Bool) : TurnExecution :=
  if isOwnerTrustedInbound msg botcordChannel then .default
  else
    let entries := inboundEntries msg
    let withGrant := entries.filterMap readAccessContext
    match withGrant.getLast? with
    | some latest => fromGrants entries latest withGrant route
    | none =>
      if entries.any entryTeamRestricted then restrictedOrRefused route none
      else if isRestrictedTurn msg route botcordChannel then .restricted none
      else .default

theorem inboundEntries_ne_nil (msg : GatewayInboundMessage) : inboundEntries msg ≠ [] := by
  unfold inboundEntries
  split <;> simp

theorem hubDecisions_ne_nil {msg : GatewayInboundMessage} {decisions : List EntryHubDecision}
    (h : hubDecisions msg = some decisions) : decisions ≠ [] := by
  obtain ⟨first, hfirst⟩ := List.exists_mem_of_ne_nil _ (inboundEntries_ne_nil msg)
  obtain ⟨hall, rfl⟩ := Option.ite_some_none_eq_some.mp h
  obtain ⟨d, hd⟩ := Option.isSome_iff_exists.mp (List.all_eq_true.mp hall first hfirst)
  exact List.ne_nil_of_mem (List.mem_filterMap.mpr ⟨first, hfirst, hd⟩)

def resolveTurnExecution (msg : GatewayInboundMessage) (route : GatewayRoute) (botcordChannel : Bool) : TurnExecution :=
  if botcordChannel then
    match h : hubDecisions msg with
    | some decisions => fromHubDecisions msg decisions (hubDecisions_ne_nil h) route
    | none => fromLocalRules msg route botcordChannel
  else .default

end BotCord.Gateway
