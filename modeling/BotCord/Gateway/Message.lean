import Mathlib.Algebra.Order.Ring.Nat
import Mathlib.Data.String.Basic

/-!
# Messages between the Hub, the channels and the dispatcher

The types of `packages/protocol-core` and `packages/daemon/src/gateway/types.ts`, with the fields that the dispatcher, the execution policy and the turn composer read. A field of a wire object that the code reads behind a type test is `none` where the test fails, so a missing value and one of another type are the same.
-/

namespace BotCord.Gateway

/-- `text.startsWith(front)` -/
def startsWith (text front : String) : Bool := front.toList.isPrefixOf text.toList

def isWhite (c : Char) : Bool :=
  c ∈ ['\t', '\n', '\x0b', '\x0c', '\r', ' ', '\u00a0', '\u1680', '\u2028', '\u2029', '\u202f', '\u205f', '\u3000', '\ufeff'] ||
    0x2000 ≤ c.toNat && c.toNat ≤ 0x200a

/-- `text.trim()` -/
def trim (text : String) : String :=
  String.ofList ((text.toList.dropWhile isWhite).reverse.dropWhile isWhite).reverse

/-- `text.length`, in UTF-16 code units. -/
def length (text : String) : ℕ := (text.toList.map fun c => if c.toNat < 0x10000 then 1 else 2).sum

/-- `hub_decision` -/
structure HubDecision where
  wake : Option Bool := none
  profile : Option String := none
  basis : Option String := none
deriving DecidableEq

/-- `access_context` -/
structure AccessContext where
  grantId : Option String := none
  spaceId : Option String := none
  role : Option String := none
  active : Option Bool := none
  requesterId : Option String := none
  workspacePath : Option String := none
  allowedCommands : Option (List (Option String)) := none
deriving DecidableEq

/-- `space_context` -/
structure SpaceContext where
  spaceId : Option String := none
  restricted : Option Bool := none
deriving DecidableEq

structure Payload where
  text : Option String := none
  body : Option String := none
  message : Option String := none
  attachments : Option ℕ := none
deriving DecidableEq

structure Envelope where
  msgId : Option String := none
  sender : String := ""
  type : String := "message"
  payload : Option Payload := none
  replyTo : Option String := none
deriving DecidableEq

/-- An element of the `item_list` of a provider's message: its type and its text. -/
structure ProviderItem where
  type : Option ℕ := none
  text : Option String := none
deriving DecidableEq

/-- `reply_preview` -/
structure ReplyPreview where
  senderId : Option String := none
  senderDisplayName : Option String := none
  textPreview : Option String := none
  deleted : Bool := false
deriving DecidableEq

structure InboxMessage where
  hubMsgId : String
  envelope : Option Envelope := none
  text : Option String := none
  roomId : Option String := none
  roomName : Option String := none
  topic : Option String := none
  topicId : Option String := none
  mentioned : Option Bool := none
  sourceType : Option String := none
  sourceUserName : Option String := none
  replyPreview : Option ReplyPreview := none
  itemList : Option (List ProviderItem) := none
  senderSameOwner : Option Bool := none
  accessContext : Option AccessContext := none
  spaceContext : Option SpaceContext := none
  hubDecision : Option HubDecision := none
deriving DecidableEq

inductive ConversationKind
  | direct | group
deriving DecidableEq

structure Conversation where
  id : String
  kind : ConversationKind
  title : Option String := none
  threadId : Option String := none

inductive SenderKind
  | user | agent | system
deriving DecidableEq

structure Sender where
  id : String
  name : Option String := none
  kind : SenderKind

/-- `raw`: one inbox message, with the whole group of a drain under `batch` if there was more than one. -/
structure Raw extends InboxMessage where
  batch : Option (List InboxMessage) := none

structure GatewayInboundMessage where
  id : String
  channel : String
  accountId : String
  conversation : Conversation
  sender : Sender
  text : String
  raw : Option Raw
  mentioned : Bool := false

inductive NonOwnerExecution
  | restricted | full
deriving DecidableEq

inductive QueueMode
  | serial | cancelPrevious
deriving DecidableEq

structure GatewayRoute where
  runtime : String
  cwd : String := ""
  queueMode : Option QueueMode := none
  nonOwnerExecution : Option NonOwnerExecution := none

structure ChannelAdapter where
  id : String
  type : String
  responseRun : Bool := true
  messageStatus : Bool := true
  streamBlock : Bool := true
  streamEnd : Bool := true

def isBotCordChannel (channel : ChannelAdapter) : Bool := channel.type = "botcord" || channel.id = "botcord"

def resolveQueueMode (route : GatewayRoute) (kind : ConversationKind) : QueueMode :=
  route.queueMode.getD (if kind = .direct then .cancelPrevious else .serial)

end BotCord.Gateway
