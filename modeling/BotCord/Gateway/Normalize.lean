import BotCord.Gateway.Execution

/-!
# From inbox messages to messages of the dispatcher

`normalizeInbox` and `normalizeInboxBatch` of the BotCord channel. What `sanitizeUntrustedContent` makes of a text is a parameter.
-/

namespace BotCord.Gateway

/-- `/^rm_dm_/` -/
def isDirectRoomId (roomId : String) : Bool := startsWith roomId "rm_dm_"

def isOwnerTrust (msg : InboxMessage) : Bool :=
  msg.roomId.any (startsWith · OWNER_CHAT_PREFIX) || msg.sourceType = some "dashboard_user_chat" ||
    msg.sourceType = some "cloud_agent_run"

/-- `msg.text`, or the text of the payload. -/
def bodyText (msg : InboxMessage) : String :=
  msg.text.getD (((msg.envelope.bind Envelope.payload).bind Payload.text).getD "")

section

variable (sanitizeUntrustedContent : String → String)

def normalizedText (msg : InboxMessage) : String :=
  if isOwnerTrust msg then bodyText msg else sanitizeUntrustedContent (bodyText msg)

structure ChannelOptions where
  channelId : String
  accountId : String

def normalizeInbox (options : ChannelOptions) (msg : InboxMessage) : Option GatewayInboundMessage :=
  match msg.envelope, msg.roomId.filter (· ≠ "") with
  | some env, some roomId =>
    if env.type ∈ ["message", "contact_request", "cloud_run"] then
      some {
        id := msg.hubMsgId
        channel := options.channelId
        accountId := options.accountId
        conversation := {
          id := roomId
          kind := if isDirectRoomId roomId || startsWith roomId OWNER_CHAT_PREFIX then .direct else .group
          title := msg.roomName.filter (· ≠ "")
          threadId := msg.topicId.or msg.topic }
        sender := {
          id := env.sender
          name := msg.sourceUserName.filter (· ≠ "")
          kind := if isOwnerTrust msg || msg.sourceType = some "dashboard_human_room" then .user else .agent }
        text := normalizedText sanitizeUntrustedContent msg
        raw := some { msg with batch := none }
        mentioned := msg.mentioned.getD false }
    else none
  | _, _ => none

/-- The message whose text stands for the group: the latest one, or the last one that has a text. -/
def representative (msgs : List InboxMessage) (latest : InboxMessage) : InboxMessage :=
  if trim (normalizedText sanitizeUntrustedContent latest) ≠ "" then latest
  else (msgs.reverse.find? fun m => trim (bodyText m) ≠ "").getD latest

def representativeText (msgs : List InboxMessage) (latest : InboxMessage) : String :=
  if trim (normalizedText sanitizeUntrustedContent latest) ≠ "" then normalizedText sanitizeUntrustedContent latest
  else ((msgs.reverse.find? fun m => trim (bodyText m) ≠ "").map bodyText).getD
    (normalizedText sanitizeUntrustedContent latest)

def normalizeInboxBatch (options : ChannelOptions) (msgs : List InboxMessage) : Option GatewayInboundMessage :=
  match msgs with
  | [] => none
  | [only] => normalizeInbox sanitizeUntrustedContent options only
  | first :: rest =>
    let latest := rest.getLastD first
    (normalizeInbox sanitizeUntrustedContent options latest).map fun base =>
      { base with
        text := representativeText sanitizeUntrustedContent msgs latest
        mentioned := msgs.any (·.mentioned = some true)
        raw := some { latest with batch := some msgs } }

end

end BotCord.Gateway
