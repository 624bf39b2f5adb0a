import BotCord.Gateway.Normalize
import Mathlib.Data.List.Infix

/-!
# Merging what waits in a queue

`mergeSerialBuffer` and `recomposeUserTurn` of the dispatcher, and which messages the text of a merged turn comes from.
-/

/-!
## The user turn

`packages/daemon/src/turn-text.ts`. A prompt is kept as the parts it is put together from, each with the message that it is the text of; the prompt of the code is their concatenation. What the composer writes around the texts (headers, room and schedule context, hints) and what it makes of a text it does not trust are parameters.
-/

namespace BotCord.Gateway

/-- A part of a text, with the id of the message it is the text of; the daemon's own words have none. -/
structure Fragment where
  source : Option String := none
  text : String

def note (text : String) : Fragment := { text }

def render (fragments : List Fragment) : String := String.join (fragments.map Fragment.text)

/-- `parts.join(separator)` -/
def joinWith (separator : String) (parts : List (List Fragment)) : List Fragment :=
  [note separator].intercalate parts

structure UserTurnContext where
  restricted : Bool
  /-- The commands of a collaborator. -/
  collaborator : Option (List String) := none
  automaticReply : Bool := false

/-- The words of the composer. -/
structure Composer where
  sanitizeUntrustedContent : String → String
  sanitizeSenderName : String → String
  /-- The text preview of a quoted message, sanitized, on one line and cut. -/
  preview : String → String
  /-- The lines before the text of a message: header, schedule, room and the opening tag. -/
  header : GatewayInboundMessage → String
  /-- The lines after it: the closing tag and the hints. -/
  footer : GatewayInboundMessage → UserTurnContext → String
  batchHeader : GatewayInboundMessage → List InboxMessage → String
  batchFooter : GatewayInboundMessage → List InboxMessage → UserTurnContext → String
  /-- The opening tag of one message of a batch. -/
  entryTag : InboxMessage → String
  entryEnd : InboxMessage → String
  replyDeliveryHint : GatewayInboundMessage → UserTurnContext → String

def readBatch (raw : Option Raw) : Option (List InboxMessage) :=
  (raw.bind Raw.batch).filter (2 ≤ ·.length)

inductive SenderClass
  | agent | human | owner
deriving DecidableEq

/-- The kind that `classifyActivitySender` gives. -/
def classifyActivitySender (msg : GatewayInboundMessage) : SenderClass :=
  if startsWith msg.conversation.id OWNER_CHAT_PREFIX ∨
      (msg.raw.bind fun raw => raw.sourceType) = some "dashboard_user_chat" then .owner
  else if msg.sender.kind = .user then .human
  else .agent

/-- `text`, or the text of the payload. -/
def entryText (entry : InboxMessage) : String :=
  match entry.text with
  | some text => text
  | none => ((entry.envelope.bind Envelope.payload).bind Payload.text).getD ""

namespace Composer

variable (c : Composer)

def formatReplyQuoteLine (entry : InboxMessage) : Option String :=
  entry.replyPreview.map fun preview =>
    if preview.deleted then "[quoting (deleted message)]"
    else
      let sender := c.sanitizeSenderName
        (((preview.senderDisplayName.filter (· ≠ "")).or (preview.senderId.filter (· ≠ ""))).getD "unknown")
      if c.preview (preview.textPreview.getD "") = "" then "[quoting " ++ sender ++ "]"
      else "[quoting " ++ sender ++ ": \"" ++ c.preview (preview.textPreview.getD "") ++ "\"]"

def quoteLine (entry : InboxMessage) : List Fragment :=
  match c.formatReplyQuoteLine entry with
  | some line => [{ source := some entry.hubMsgId, text := line }, note "\n"]
  | none => []

/-- One message of the owner's batch. -/
def ownerEntry (entry : InboxMessage) : List Fragment :=
  [note ("[message_id: " ++ ((entry.envelope.bind Envelope.msgId).getD "unknown") ++ "]\n"),
    { source := some entry.hubMsgId, text := (c.formatReplyQuoteLine entry).getD "" }, note "\n",
    { source := some entry.hubMsgId, text := entryText entry }]

def batchEntry (entry : InboxMessage) : List Fragment :=
  note (c.entryTag entry) :: c.quoteLine entry ++
    [{ source := some entry.hubMsgId, text := c.sanitizeUntrustedContent (entryText entry) }, note (c.entryEnd entry)]

def composeBatchedTurn (msg : GatewayInboundMessage) (batch : List InboxMessage) (ctx : UserTurnContext) :
    List Fragment :=
  note (c.batchHeader msg batch) :: joinWith "\n" (batch.map c.batchEntry) ++ [note (c.batchFooter msg batch ctx)]

def automaticNote (msg : GatewayInboundMessage) (ctx : UserTurnContext) : List Fragment :=
  if ctx.automaticReply then [note ("\n\n" ++ c.replyDeliveryHint msg ctx)] else []

def ownQuote (msg : GatewayInboundMessage) : List Fragment :=
  match msg.raw with
  | some raw => c.quoteLine raw.toInboxMessage
  | none => []

/-- The turn for a message whose trimmed text is put together from `text`. -/
def composeBotCordUserTurn (msg : GatewayInboundMessage) (ctx : UserTurnContext) (text : List Fragment) : List Fragment :=
  if render text = "" then text
  else if classifyActivitySender msg = .owner then
    match readBatch msg.raw with
    | some batch => joinWith "\n\n" (batch.map c.ownerEntry) ++ c.automaticNote msg ctx
    | none => c.ownQuote msg ++ text ++ c.automaticNote msg ctx
  else
    match readBatch msg.raw with
    | some batch => c.composeBatchedTurn msg batch ctx
    | none => note (c.header msg) :: c.ownQuote msg ++ text ++ [note (c.footer msg ctx)]

end Composer

end BotCord.Gateway

namespace BotCord.Gateway

/-- `MAX_BATCH_BUFFER_CHARS` -/
def MAX_BATCH_BUFFER_CHARS : ℕ := 16000

abbrev TurnId := ℕ

structure BufferedSerialEntry where
  route : GatewayRoute
  msg : GatewayInboundMessage
  channel : ChannelAdapter
  turnId : TurnId

/-- The message of an entry without a batch, marked if the entry is a mention. -/
def ownItem (e : BufferedSerialEntry) (raw : Raw) : InboxMessage :=
  if e.msg.mentioned then { raw.toInboxMessage with mentioned := some true } else raw.toInboxMessage

/-- What an entry adds to the batch: its own batch, or its message. -/
def entryItems (e : BufferedSerialEntry) : List InboxMessage :=
  match e.msg.raw with
  | some raw => raw.batch.getD [ownItem e raw]
  | none => []

def itemChars (m : InboxMessage) : ℕ := (m.text.map length).getD 0

def totalChars (items : List InboxMessage) : ℕ := (items.map itemChars).sum

def capChars : List InboxMessage → List InboxMessage
  | [] => []
  | [m] => [m]
  | m :: next :: rest =>
    if MAX_BATCH_BUFFER_CHARS < totalChars (m :: next :: rest) then capChars (next :: rest) else m :: next :: rest

def mergedItems (entries : List BufferedSerialEntry) : List InboxMessage := capChars (entries.flatMap entryItems)

def textSource (c : Composer) (e : BufferedSerialEntry) : Option String :=
  e.msg.raw.map fun raw =>
    match raw.batch with
    | some batch => (representative c.sanitizeUntrustedContent batch raw.toInboxMessage).hubMsgId
    | none => raw.hubMsgId

def entryFragment (c : Composer) (e : BufferedSerialEntry) : Fragment where
  source := textSource c e
  text := trim e.msg.text

/-- The texts that are not blank, a line each. -/
def mergedText (c : Composer) (entries : List BufferedSerialEntry) : List Fragment :=
  joinWith "\n" (((entries.map (entryFragment c)).filter (·.text ≠ "")).map fun fragment => [fragment])

def userTurnContext (msg : GatewayInboundMessage) (route : GatewayRoute) (channel : ChannelAdapter)
    (automaticReply : Bool) : UserTurnContext :=
  match resolveTurnExecution msg route (isBotCordChannel channel) with
  | .collaborator grant => { restricted := true, collaborator := some grant.allowedCommands }
  | .default => { restricted := false, automaticReply }
  | _ => { restricted := true, automaticReply }

def isContactRequest (msg : GatewayInboundMessage) : Bool :=
  ((msg.raw.bind fun raw => raw.envelope).map Envelope.type) = some "contact_request"

def isTeamConversation (msg : GatewayInboundMessage) : Bool :=
  let entries := ((msg.raw.bind Raw.batch).map (·.map some)).getD [msg.raw.map Raw.toInboxMessage]
  !entries.isEmpty && entries.all fun entry => ((entry.bind InboxMessage.spaceContext).bind SpaceContext.spaceId).any (· ≠ "")

def recomposeUserTurn (c : Composer) (msg : GatewayInboundMessage) (route : GatewayRoute) (channel : ChannelAdapter)
    (text : List Fragment) : List Fragment :=
  c.composeBotCordUserTurn msg
    (userTurnContext msg route channel (isBotCordChannel channel && isTeamConversation msg && !isContactRequest msg)) text

structure MergedTurn where
  route : GatewayRoute
  text : List Fragment
  msg : GatewayInboundMessage
  channel : ChannelAdapter
  turnId : TurnId

/-- The message of a merged turn: the latest one with the texts of all and the batch that is left of them. -/
def mergedMessage (c : Composer) (entries : List BufferedSerialEntry) (latest : BufferedSerialEntry) :
    GatewayInboundMessage :=
  { latest.msg with
    text := if mergedText c entries = [] then latest.msg.text else render (mergedText c entries)
    mentioned := entries.any (·.msg.mentioned)
    raw := some { latest.msg.raw.getD { hubMsgId := "" } with batch := some (mergedItems entries) } }

/-- The turn for a message, with the route, the channel and the id of an entry. -/
def composedTurn (c : Composer) (msg : GatewayInboundMessage) (e : BufferedSerialEntry) (text : List Fragment) :
    MergedTurn where
  route := e.route
  text := recomposeUserTurn c msg e.route e.channel text
  msg := msg
  channel := e.channel
  turnId := e.turnId

def mergeSerialBuffer (c : Composer) : List BufferedSerialEntry → Option MergedTurn
  | [] => none
  | [only] => some (composedTurn c only.msg only [entryFragment c only])
  | first :: rest =>
    let latest := rest.getLastD first
    some (composedTurn c (mergedMessage c (first :: rest) latest) latest (mergedText c (first :: rest)))

@[simp] theorem ownItem_hubMsgId (e : BufferedSerialEntry) (raw : Raw) : (ownItem e raw).hubMsgId = raw.hubMsgId := by
  unfold ownItem
  split <;> rfl

theorem entryItems_eq {e : BufferedSerialEntry} {raw : Raw} (h : e.msg.raw = some raw) :
    entryItems e = raw.batch.getD [ownItem e raw] := by
  rw [entryItems, h]

theorem capChars_suffix (items : List InboxMessage) : capChars items <:+ items := by
  induction items using capChars.induct with
  | case1 => exact List.suffix_rfl
  | case2 m => exact List.suffix_rfl
  | case3 m next rest hover ih =>
    rw [capChars, if_pos hover]
    exact ih.trans (List.suffix_cons m _)
  | case4 m next rest hfits =>
    rw [capChars, if_neg hfits]

theorem capChars_ne_nil {items : List InboxMessage} (h : items ≠ []) : capChars items ≠ [] := by
  induction items using capChars.induct with
  | case1 => exact absurd rfl h
  | case2 m => exact h
  | case3 m next rest hover ih =>
    rw [capChars, if_pos hover]
    exact ih (List.cons_ne_nil _ _)
  | case4 m next rest hfits =>
    rw [capChars, if_neg hfits]
    exact h

/-- The texts of the last two messages fit together. -/
def LastTwoFit (items : List InboxMessage) : Prop := totalChars (items.drop (items.length - 2)) ≤ MAX_BATCH_BUFFER_CHARS

theorem totalChars_cons (m : InboxMessage) (items : List InboxMessage) :
    totalChars (m :: items) = itemChars m + totalChars items := rfl

theorem totalChars_drop_le (n : ℕ) (items : List InboxMessage) : totalChars (items.drop n) ≤ totalChars items := by
  induction items generalizing n with
  | nil => simp
  | cons m rest ih =>
    cases n with
    | zero => rfl
    | succ n =>
      rw [List.drop_succ_cons, totalChars_cons]
      exact (ih n).trans (Nat.le_add_left _ _)

theorem two_le_length_capChars {items : List InboxMessage} (h : 2 ≤ items.length) :
    2 ≤ (capChars items).length ↔ LastTwoFit items := by
  induction items using capChars.induct with
  | case1 => exact absurd h (by simp)
  | case2 m => exact absurd h (by simp)
  | case3 m next rest hover ih =>
    rw [capChars, if_pos hover]
    cases rest with
    | nil =>
      refine ⟨fun hlength => absurd hlength (by simp [capChars]), fun hfit => absurd hfit ?_⟩
      exact Nat.not_le.mpr hover
    | cons last rest =>
      have hdrop : (m :: next :: last :: rest).length - 2 = (next :: last :: rest).length - 2 + 1 := by
        simp
      rw [ih (by simp), LastTwoFit, LastTwoFit, hdrop, List.drop_succ_cons]
  | case4 m next rest hfits =>
    rw [capChars, if_neg hfits]
    exact ⟨fun _ => (totalChars_drop_le _ _).trans (Nat.not_lt.mp hfits), fun _ => h⟩

end BotCord.Gateway
