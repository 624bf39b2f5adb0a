import BotCord.Foundation.Run
import Mathlib.Data.Nat.Notation
import Mathlib.Logic.Function.Basic

/-!
# The attention policies of the daemon

`packages/daemon/src/gateway/policy-resolver.ts`: a cache of policies under the id of an agent, or of an agent and a room, that is filled by pushes and by fetches. A `resolve` that finds nothing awaits a fetch, and what it brings is written when it settles. What the server knows changes at any time, and a fetch reads it at some moment while it is under way.

Nothing reads what was pushed and what a `resolve` has returned; both are kept to say what a push promises.
-/

namespace BotCord.Policy

abbrev AgentId := String

/-- Milliseconds. -/
abbrev Instant := ℕ

inductive AttentionMode
  | always | mentionOnly | keyword | allowedSenders | muted
deriving DecidableEq

structure DaemonAttentionPolicy where
  mode : AttentionMode
  keywords : List String := []
  allowedSenderIds : Option (List String) := none
  mutedUntil : Option Instant := none
deriving DecidableEq

structure Options where
  /-- Whether a fetcher for single rooms is wired. -/
  fetchEffective : Bool := false
  ttlMs : ℕ := 5 * 60 * 1000

def isDirectRoomId (roomId : String) : Bool := roomId.startsWith "rm_dm_" || roomId.startsWith "rm_sdm_"

def isDirectConversation (roomId : String) : Bool :=
  isDirectRoomId roomId || roomId.startsWith "telegram:user:" || roomId.startsWith "wechat:user:" ||
    roomId.startsWith "feishu:user:"

def truthy (roomId : Option String) : Option String := roomId.filter (· ≠ "")

def maybeForceDirectConversation (roomId : Option String) (policy : DaemonAttentionPolicy) : DaemonAttentionPolicy :=
  if (truthy roomId).any isDirectConversation && policy.mode ≠ .always then { policy with mode := .always } else policy

def defaultPolicy : DaemonAttentionPolicy := { mode := .always }

def cacheKey (agentId : AgentId) (roomId : Option String) : String :=
  match truthy roomId with
  | some room => agentId ++ ":" ++ room
  | none => agentId

/-- What `invalidate` deletes: one entry, or all of an agent. -/
def invalidates (agentId : AgentId) (roomId : Option String) (key : String) : Bool :=
  match roomId with
  | some _ => key = cacheKey agentId roomId
  | none => key = agentId || key.startsWith (agentId ++ ":")

structure Entry where
  policy : DaemonAttentionPolicy
  expiresAt : Instant

/-- The last `put` on a key that no `invalidate` has touched. -/
structure Push where
  agentId : AgentId
  roomId : Option String
  policy : DaemonAttentionPolicy
  expiresAt : Instant

/-- What a fetch brings: a policy, none that is known, or an error. -/
inductive Fetched
  | policy (policy : Option DaemonAttentionPolicy)
  | failed
deriving DecidableEq

/-- A `resolve` that awaits its fetch. -/
structure Resolving where
  agentId : AgentId
  roomId : Option String
  now : Instant
  /-- Whether the policy of the room is fetched, or that of the agent. -/
  effective : Bool
  fetched : Option Fetched := none
  promised : Option DaemonAttentionPolicy

/-- The key that a `resolve` writes when its fetch has settled. -/
def Resolving.key (c : Resolving) : String := cacheKey c.agentId (if c.effective then c.roomId else none)

/-- What a `resolve` has returned, and what a push had promised it when it began. -/
structure Resolved where
  agentId : AgentId
  roomId : Option String
  promised : Option DaemonAttentionPolicy
  policy : DaemonAttentionPolicy
deriving DecidableEq

structure PolicyResolver where
  now : Instant := 0
  cache : String → Option Entry := fun _ => none
  calls : ℕ → Option Resolving := fun _ => none
  serverGlobal : AgentId → Option DaemonAttentionPolicy := fun _ => none
  serverEffective : AgentId → String → Option DaemonAttentionPolicy := fun _ _ => none
  pushed : String → Option Push := fun _ => none
  resolved : List Resolved := []

namespace PolicyResolver

variable (r : PolicyResolver)

def hit (key : String) : Option Entry := (r.cache key).filter (r.now < ·.expiresAt)

def standing (agentId : AgentId) (roomId : Option String) : Option Push :=
  (r.pushed (cacheKey agentId roomId)).filter fun p =>
    p.agentId = agentId ∧ truthy p.roomId = truthy roomId ∧ r.now < p.expiresAt

/-- What the pushes promise a `resolve` that begins now: the override of the room, else what the agent has by default. -/
def promised (agentId : AgentId) (roomId : Option String) : Option DaemonAttentionPolicy :=
  (((r.standing agentId roomId).or (r.standing agentId none))).map (maybeForceDirectConversation roomId ·.policy)

def store (key : String) (entry : Entry) : PolicyResolver := { r with cache := Function.update r.cache key (some entry) }

def answer (agentId : AgentId) (roomId : Option String) (promised : Option DaemonAttentionPolicy)
    (policy : DaemonAttentionPolicy) : PolicyResolver :=
  { r with resolved := r.resolved ++ [⟨agentId, roomId, promised, policy⟩] }

def fetch (i : ℕ) (agentId : AgentId) (roomId : Option String) (effective : Bool) : PolicyResolver :=
  { r with
    calls := Function.update r.calls i
      (some { agentId, roomId, now := r.now, effective, promised := r.promised agentId roomId }) }

/-- `resolve` up to its fetch. -/
def resolve (options : Options) (i : ℕ) (agentId : AgentId) (roomId : Option String) : PolicyResolver :=
  match (truthy roomId).bind fun _ => r.hit (cacheKey agentId roomId) with
  | some roomHit => r.answer agentId roomId (r.promised agentId roomId) roomHit.policy
  | none =>
    if (truthy roomId).isSome && options.fetchEffective then r.fetch i agentId roomId true
    else
      match r.hit (cacheKey agentId none) with
      | some globalHit =>
        r.answer agentId roomId (r.promised agentId roomId) (maybeForceDirectConversation roomId globalHit.policy)
      | none => r.fetch i agentId roomId false

def serve (c : Resolving) : Fetched :=
  .policy (if c.effective then (truthy c.roomId).bind (r.serverEffective c.agentId) else r.serverGlobal c.agentId)

/-- `resolve` after its fetch. -/
def settle (options : Options) (c : Resolving) : Fetched → PolicyResolver
  | .failed => r.answer c.agentId c.roomId c.promised defaultPolicy
  | .policy fetched =>
    let policy := fetched.getD defaultPolicy
    let forced := maybeForceDirectConversation c.roomId policy
    (r.store c.key ⟨if c.effective then forced else policy, c.now + options.ttlMs⟩).answer c.agentId c.roomId c.promised
      forced

def invalidate (agentId : AgentId) (roomId : Option String) : PolicyResolver :=
  { r with
    cache := fun key => if invalidates agentId roomId key then none else r.cache key
    pushed := fun key => if invalidates agentId roomId key then none else r.pushed key }

def put (options : Options) (agentId : AgentId) (roomId : Option String) (policy : DaemonAttentionPolicy) :
    PolicyResolver :=
  { r.store (cacheKey agentId roomId) ⟨maybeForceDirectConversation roomId policy, r.now + options.ttlMs⟩ with
    pushed := Function.update r.pushed (cacheKey agentId roomId) (some ⟨agentId, roomId, policy, r.now + options.ttlMs⟩) }

end PolicyResolver

/-- Calls, what becomes of their fetches, and what changes outside. -/
inductive PolicyAction
  | resolve (i : ℕ) (agentId : AgentId) (roomId : Option String)
  | serve (i : ℕ)
  | fail (i : ℕ)
  | settle (i : ℕ)
  | put (agentId : AgentId) (roomId : Option String) (policy : DaemonAttentionPolicy)
  | invalidate (agentId : AgentId) (roomId : Option String)
  | elapse (ms : ℕ)
  | setGlobal (agentId : AgentId) (policy : Option DaemonAttentionPolicy)
  | setEffective (agentId : AgentId) (roomId : String) (policy : Option DaemonAttentionPolicy)

/-- A fetch is answered once, while it is under way. -/
def policyResolver (options : Options) : System PolicyResolver PolicyAction where
  step r
    | .resolve i agentId roomId => if (r.calls i).isNone then some (r.resolve options i agentId roomId) else none
    | .serve i =>
      ((r.calls i).filter (·.fetched.isNone)).map fun c =>
        { r with calls := Function.update r.calls i (some { c with fetched := some (r.serve c) }) }
    | .fail i =>
      ((r.calls i).filter (·.fetched.isNone)).map fun c =>
        { r with calls := Function.update r.calls i (some { c with fetched := some .failed }) }
    | .settle i =>
      (r.calls i).bind fun c => c.fetched.map fun fetched =>
        { r with calls := Function.update r.calls i none }.settle options c fetched
    | .put agentId roomId policy => some (r.put options agentId roomId policy)
    | .invalidate agentId roomId => some (r.invalidate agentId roomId)
    | .elapse ms => some { r with now := r.now + ms }
    | .setGlobal agentId policy => some { r with serverGlobal := Function.update r.serverGlobal agentId policy }
    | .setEffective agentId roomId policy =>
      some { r with
        serverEffective := Function.update r.serverEffective agentId
          (Function.update (r.serverEffective agentId) roomId policy) }

end BotCord.Policy
