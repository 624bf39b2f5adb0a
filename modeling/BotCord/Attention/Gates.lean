import BotCord.Policy.Resolver

/-!
# Four gates for waking an agent

`should_wake` and `decide_inbox` of `hub/services/access_inbox.py`, `would_wake_runtime` of `hub/services/cloud_agent_activity.py`, the attention gate of `packages/daemon/src/daemon.ts` with `shouldWake` of `packages/protocol-core`, and the policy that all of them read, as `effective_attention_from` of `hub/policy.py` resolves it and `_wire_policy` sends it to the daemon. Of a decision of the inbox this is the half that wakes; the execution profile is left out. Times on the Hub are microseconds.
-/

namespace BotCord.Attention

open Policy (AgentId AttentionMode DaemonAttentionPolicy isDirectRoomId maybeForceDirectConversation)

/-- What `json.loads` makes of a text: a list, of which the strings count, or something else. -/
inductive Json
  | list (items : List (Option String))
  | other

/-- What the gates use of their libraries: one way to fold case, and JSON. -/
structure Library where
  lower : String → String
  loads : String → Option Json
  lower_eq_empty : ∀ s, lower s = "" ↔ s = ""

abbrev RoomId := String
abbrev SenderId := String

structure Agent where
  agentId : AgentId
  displayName : Option String := none
  defaultAttention : Option AttentionMode := none
  attentionKeywords : Option String := none

structure AgentRoomPolicyOverride where
  attentionMode : Option AttentionMode := none
  keywords : Option String := none
  allowedSenderIds : Option String := none
  mutedUntil : Option ℕ := none

structure AgentSenderReplyRule where
  attentionMode : AttentionMode
  keywords : Option String := none
  mutedUntil : Option ℕ := none

/-- The rule for a sender in a room, or in every room under the empty id. -/
abbrev Rules := SenderId → RoomId → Option AgentSenderReplyRule

inductive Source
  | global | override | dmForced
deriving DecidableEq

structure EffectiveAttention where
  mode : AttentionMode
  keywords : List String := []
  allowedSenderIds : List SenderId := []
  mutedUntil : Option ℕ := none
  source : Source := .global

structure Message where
  senderId : SenderId
  mentioned : Bool := false
  text : String := ""

inductive MessageType
  | message | ack | result | error | contactRequest | contactRequestResponse | contactRemoved | system | cloudRun
deriving DecidableEq

variable (lib : Library)

def decodeKeywords (raw : String) : List String :=
  if raw = "" then []
  else
    match lib.loads raw with
    | some (.list items) => items.filterMap id
    | _ => []

def effectiveAttentionFrom (agent : Agent) (roomId : RoomId) (override : Option AgentRoomPolicyOverride) (now : ℕ) :
    EffectiveAttention :=
  if isDirectRoomId roomId then { mode := .always, source := .dmForced }
  else
    let defaultMode := agent.defaultAttention.getD .always
    let defaultKeywords := decodeKeywords lib (agent.attentionKeywords.getD "")
    match override with
    | none => { mode := defaultMode, keywords := defaultKeywords }
    | some row =>
      { mode := row.attentionMode.getD defaultMode
        keywords := row.keywords.elim defaultKeywords (decodeKeywords lib)
        allowedSenderIds := decodeKeywords lib (row.allowedSenderIds.getD "")
        mutedUntil := row.mutedUntil.filter (now < ·)
        source := .override }

/-- `_wire_policy`, with the end of the snooze in milliseconds. -/
def wirePolicy (eff : EffectiveAttention) : DaemonAttentionPolicy where
  mode := eff.mode
  keywords := eff.keywords
  allowedSenderIds := some eff.allowedSenderIds
  mutedUntil := eff.mutedUntil.map (· / 1000)

/-- What `str.strip` removes. -/
def pythonSpace (c : Char) : Bool :=
  let n := c.toNat
  (9 ≤ n && n ≤ 13) || (28 ≤ n && n ≤ 32) || n = 0x85 || n = 0xA0 || n = 0x1680 || (0x2000 ≤ n && n ≤ 0x200A) ||
    n = 0x2028 || n = 0x2029 || n = 0x202F || n = 0x205F || n = 0x3000

/-- What `String.prototype.trim` removes. -/
def javascriptSpace (c : Char) : Bool :=
  let n := c.toNat
  (9 ≤ n && n ≤ 13) || n = 32 || n = 0xA0 || n = 0x1680 || (0x2000 ≤ n && n ≤ 0x200A) || n = 0x2028 || n = 0x2029 ||
    n = 0x202F || n = 0x205F || n = 0x3000 || n = 0xFEFF

def strip (space : Char → Bool) (s : String) : String :=
  String.ofList (((s.toList.dropWhile space).reverse.dropWhile space).reverse)

/-- `scan_mention` -/
def scanMention (text : String) (agentId : AgentId) (displayName : Option String) : Bool :=
  let lower := lib.lower text
  if lower = "" then false
  else
    let aid := lib.lower (strip pythonSpace agentId)
    if lower.contains ("(" ++ aid ++ ")") || lower.contains ("@" ++ aid) then true
    else
      let name := lib.lower (strip pythonSpace (displayName.getD ""))
      name ≠ "" && lower.contains ("@" ++ name)

def hasKeyword (keywords : List String) (text : String) : Bool :=
  keywords.any fun kw => kw ≠ "" && (lib.lower text).contains (lib.lower kw)

/-- `should_wake` of the Hub, with its reason. It has no case for `muted`. -/
def shouldWake (eff : EffectiveAttention) (mentioned : Bool) (text : String) (senderId : SenderId) (now : ℕ) :
    Bool × String :=
  if eff.mutedUntil.any (now < ·) then (false, "muted")
  else
    match eff.mode with
    | .always => (true, "always")
    | .mentionOnly => if mentioned then (true, "mentioned") else (false, "mention_required")
    | .keyword => if hasKeyword lib eff.keywords text then (true, "keyword") else (false, "keyword_missing")
    | .allowedSenders =>
      if senderId ∈ eff.allowedSenderIds then (true, "allowed_sender") else (false, "sender_not_allowed")
    | .muted => (true, "unknown_mode")

def ruleAttention (rule : AgentSenderReplyRule) (base : EffectiveAttention) : EffectiveAttention where
  mode := rule.attentionMode
  keywords := rule.keywords.elim base.keywords (decodeKeywords lib)
  allowedSenderIds := base.allowedSenderIds
  mutedUntil := rule.mutedUntil
  source := .override

/-- `_attention_for`: a rule of the room, the override of the room, a rule for all rooms, the default. -/
def attentionFor (rules : Rules) (roomId : RoomId) (senderId : SenderId) (base : EffectiveAttention) : EffectiveAttention :=
  if base.source = .dmForced then base
  else
    match (rules senderId roomId).filter fun _ => roomId ≠ "" with
    | some rule => ruleAttention lib rule base
    | none =>
      if base.source = .override then base
      else
        match rules senderId "" with
        | some rule => ruleAttention lib rule base
        | none => base

def isOwnerChat (roomId : RoomId) : Bool := roomId.startsWith "rm_oc_"

/-- `decide_inbox` for one message of a room: whether it wakes, and why. -/
def decideInbox (agent : Agent) (override : Option AgentRoomPolicyOverride) (rules : Rules) (roomId : RoomId)
    (item : Message) (now : ℕ) : Bool × String :=
  if isOwnerChat roomId || isDirectRoomId roomId || roomId = "" then (true, "direct")
  else
    let eff := attentionFor lib rules roomId item.senderId (effectiveAttentionFrom lib agent roomId override now)
    let mentioned := item.mentioned || scanMention lib item.text agent.agentId agent.displayName
    shouldWake lib eff mentioned item.text item.senderId now

def nonWakingMessageTypes : List MessageType := [.ack, .result, .error, .contactRequestResponse, .contactRemoved]

/-- `would_wake_runtime`: whether a message counts as waking a cloud agent. -/
def wouldWakeRuntime (receiver : Agent) (override : Option AgentRoomPolicyOverride) (roomId : RoomId) (item : Message)
    (messageType : MessageType) (now : ℕ) : Bool :=
  if messageType ∈ nonWakingMessageTypes then false
  else
    let eff := effectiveAttentionFrom lib receiver roomId override now
    if eff.mutedUntil.any (now < ·) then false
    else
      match eff.mode with
      | .muted => false
      | .always => true
      | .mentionOnly => item.mentioned
      | .keyword => if item.text = "" || eff.keywords = [] then false else hasKeyword lib eff.keywords item.text
      | .allowedSenders => if item.senderId = "" then false else item.senderId ∈ eff.allowedSenderIds

/-- `scanMention` of the daemon, with the name that it has for the agent. -/
def localMention (text : String) (agentId : AgentId) (displayName : Option String) : Bool :=
  if text = "" then false
  else
    let lower := lib.lower text
    let aid := lib.lower (strip javascriptSpace agentId)
    if aid ≠ "" && lower.contains ("(" ++ aid ++ ")") then true
    else
      let trimmed := strip javascriptSpace (displayName.getD "")
      ([aid] ++ if trimmed = "" then [] else [lib.lower trimmed]).any fun c => c ≠ "" && lower.contains ("@" ++ c)

/-- What `shouldWake` of the protocol core is given. -/
structure AttentionMessage where
  mentioned : Bool := false
  text : String := ""
  senderId : Option SenderId := none

/-- `shouldWake` of the protocol core, at a time in milliseconds. -/
def protocolShouldWake (policy : DaemonAttentionPolicy) (msg : AttentionMessage) (now : ℕ) : Bool :=
  if policy.mode = .muted then false
  else if policy.mutedUntil.any (now < ·) then false
  else
    match policy.mode with
    | .always => true
    | .mentionOnly => msg.mentioned
    | .keyword => if lib.lower msg.text = "" then false else hasKeyword lib policy.keywords msg.text
    | .allowedSenders => (msg.senderId.filter (· ≠ "")).any (· ∈ policy.allowedSenderIds.getD [])
    | .muted => true

/-- The attention gate of the daemon for a message that carries no decision of the Hub. -/
def attentionGate (pushed : DaemonAttentionPolicy) (agentId : AgentId) (displayName : Option String) (roomId : RoomId)
    (msg : Message) (now : ℕ) : Bool :=
  let policy := maybeForceDirectConversation (some roomId) pushed
  if policy.mode = .allowedSenders then msg.senderId ∈ policy.allowedSenderIds.getD []
  else
    protocolShouldWake lib policy { mentioned := msg.mentioned || localMention lib msg.text agentId displayName, text := msg.text } now

end BotCord.Attention
