import BotCord.Delivery.Hub
import BotCord.Foundation.Keyed

/-!
# Topics

The topics of the rooms, the messages that are stored under them, and what writes both: `_resolve_or_create_topic`, `_send_room_message` and `receive_receipt` of `hub/routers/hub.py`, `create_topic` and `update_topic` of `hub/routers/topics.py`. A worker refuses a message with the content of the sender's last one. A call reads its topic in one statement and writes and commits in a later one. Whom a message reaches and who is a member come with the request.
-/

namespace BotCord.Topics

open Delivery (column)

abbrev TopicId := String

abbrev RoomId := String

abbrev AgentId := String

abbrev MsgId := String

/-- Seconds. -/
abbrev Instant := ℕ

inductive TopicStatus
  | opened | completed | failed | expired
deriving DecidableEq

def TopicStatus.Terminated (s : TopicStatus) : Prop := s = .completed ∨ s = .failed ∨ s = .expired
deriving Decidable

inductive MessageType
  | message | ack | result | error
deriving DecidableEq

def truthy (goal : Option String) : Option String := goal.filter (· ≠ "")

structure Topic where
  topicId : TopicId
  roomId : RoomId
  title : String
  description : String := ""
  status : TopicStatus := .opened
  creatorId : AgentId
  goal : Option String := none
  messageCount : ℕ := 0
  closedAt : Option Instant := none

/-- A message or a receipt, for one receiver. -/
structure MessageRecord where
  msgId : MsgId
  senderId : AgentId
  receiverId : AgentId
  roomId : Option RoomId
  topicId : Option TopicId

structure SendRequest where
  roomId : RoomId
  /-- The topic that the message names. -/
  topic : Option String
  senderId : AgentId
  msgId : MsgId
  type : MessageType
  goal : Option String
  /-- The digest of the payload, with its keys in order. -/
  contentHash : String
  /-- Whether the payload responds to a request. -/
  response : Bool := false
  /-- The members who are not muted and have not blocked the sender. -/
  receivers : List AgentId
  /-- The id that is drawn for a new topic. -/
  newTopicId : TopicId

/-- The record of a message for one receiver. -/
def SendRequest.record (request : SendRequest) (topicId : Option TopicId) (receiverId : AgentId) : MessageRecord :=
  { msgId := request.msgId, senderId := request.senderId, receiverId, roomId := some request.roomId, topicId }

structure Receipt where
  msgId : MsgId
  sender : AgentId
  replyTo : MsgId
  type : MessageType

/-- A field that is not set is `none`, one that is set to null `some none`. -/
structure UpdateTopicRequest where
  title : Option (Option String) := none
  description : Option (Option String) := none
  status : Option (Option TopicStatus) := none
  goal : Option (Option String) := none

namespace Topic

variable (t : Topic) (type : MessageType) (now : Instant)

def close : Topic :=
  if t.status = .opened then
    match type with
    | .result => { t with status := .completed, closedAt := some now }
    | .error => { t with status := .failed, closedAt := some now }
    | _ => t
  else t

def reopen (goal : Option String) : Topic :=
  if t.status.Terminated ∧ (truthy goal).isSome then { t with status := .opened, goal, closedAt := none } else t

def receive (goal : Option String) : Topic :=
  { (t.reopen goal).close type now with messageCount := t.messageCount + 1 }

/-- What a receipt makes of its topic. -/
def receipt : Topic :=
  if t.status = .opened then { t.close type now with messageCount := t.messageCount + 1 } else t

/-- What an update makes of a topic; one that is to be opened again needs a goal. -/
def update (body : UpdateTopicRequest) : Option Topic :=
  let t := { t with title := body.title.join.getD t.title, description := body.description.join.getD t.description }
  match body.status.join with
  | none => some (if body.status = none then { t with goal := body.goal.getD t.goal } else t)
  | some status =>
    if t.status.Terminated ∧ status = .opened then
      (truthy body.goal.join).map fun goal => { t with goal := some goal, closedAt := none, status }
    else if t.status = .opened ∧ (status = .completed ∨ status = .failed) then some { t with closedAt := some now, status }
    else some { t with status }

/-- Write what has changed since a topic was loaded over its row. -/
def save (loaded changed row : Topic) : Topic :=
  { row with
    title := column loaded.title changed.title row.title
    description := column loaded.description changed.description row.description
    status := column loaded.status changed.status row.status
    goal := column loaded.goal changed.goal row.goal
    messageCount := column loaded.messageCount changed.messageCount row.messageCount
    closedAt := column loaded.closedAt changed.closedAt row.closedAt }

theorem topicId_save (loaded changed row : Topic) : (loaded.save changed row).topicId = row.topicId := rfl

end Topic

/-- What is committed. -/
structure Store where
  topics : Keyed Topic.topicId := {}
  records : List MessageRecord := []

namespace Store

variable (s : Store)

def findTopic (roomId : RoomId) (title : String) : Option Topic :=
  s.topics.rows.find? fun t => t.roomId = roomId ∧ t.title = title

def Taken (topicId : TopicId) (roomId : RoomId) (title : String) : Prop :=
  ∃ t ∈ s.topics, t.topicId ≠ topicId ∧ t.roomId = roomId ∧ t.title = title
deriving Decidable

/-- Insert a topic; `none` where its id or its place is taken. -/
def insertTopic (t : Topic) : Option Store :=
  if s.Taken t.topicId t.roomId t.title then none
  else (s.topics.insert? t).map fun topics => { s with topics }

/-- Update a topic by its id; `none` where its title is another's. -/
def saveTopic (loaded changed : Topic) : Option Store :=
  if ∃ row ∈ s.topics, row.topicId = loaded.topicId ∧
      s.Taken row.topicId row.roomId (loaded.save changed row).title then none
  else some { s with topics := s.topics.modify (·.topicId = loaded.topicId) (loaded.save changed) (loaded.topicId_save changed) }

def insertRecord (r : MessageRecord) : Store :=
  if ∃ x ∈ s.records, x.msgId = r.msgId ∧ x.receiverId = r.receiverId then s
  else { s with records := s.records ++ [r] }

/-- Store a message for its receivers, or for its sender where there are none. -/
def fanOut (request : SendRequest) (topicId : Option TopicId) : Store :=
  (if request.receivers = [] then [request.senderId] else request.receivers).foldl
    (fun s receiverId => s.insertRecord (request.record topicId receiverId)) s

end Store

inductive Call
  /-- A message that has passed the checks. -/
  | checked (request : SendRequest) (now : Instant)
  | send (request : SendRequest) (now : Instant) (loaded : Option Topic)
  | receipt (receipt : Receipt) (now : Instant) (original : MessageRecord) (loaded : Option Topic)
  | update (loaded changed : Topic) (body : UpdateTopicRequest)

structure Hub where
  store : Store := {}
  calls : ℕ → Option Call := fun _ => none
  /-- What a worker remembers of an agent's last message to a room. -/
  lastMsgHash : ℕ → RoomId → AgentId → Option String := fun _ _ _ => none

inductive Action
  | sendRoomMessage (i worker : ℕ) (request : SendRequest) (now : Instant)
  | receiveReceipt (i : ℕ) (receipt : Receipt) (now : Instant)
  | createTopic (topicId : TopicId) (roomId : RoomId) (title description : String) (creatorId : AgentId)
    (goal : Option String)
  | updateTopic (i : ℕ) (roomId : RoomId) (topicId : TopicId) (agentId : AgentId) (administers : Bool)
    (body : UpdateTopicRequest) (now : Instant)
  /-- A call reads its topic, or writes and commits. -/
  | next (i : ℕ)
  | crash (i : ℕ)
  /-- A worker forgets a message, with time or with a restart. -/
  | forget (worker : ℕ) (roomId : RoomId) (agentId : AgentId)

namespace Hub

variable (d : Hub) (i : ℕ)

def proceed (call : Call) : Hub := { d with calls := Function.update d.calls i (some call) }

def begin (call : Call) : Option Hub := if d.calls i = none then some (d.proceed i call) else none

/-- A call ends over what is committed then. -/
def finish (store : Store) : Hub := { d with store, calls := Function.update d.calls i none }

def remember (worker : ℕ) (roomId : RoomId) (agentId : AgentId) (hash : Option String) : Hub :=
  { d with lastMsgHash := fun w r a => if w = worker ∧ r = roomId ∧ a = agentId then hash else d.lastMsgHash w r a }

/-- Owner chats and responses may repeat what was said. -/
def checkDuplicateContent (worker : ℕ) (request : SendRequest) : Option Hub :=
  if "rm_oc_".toList.isPrefixOf request.roomId.toList ∨ request.response then some d
  else if d.lastMsgHash worker request.roomId request.senderId = some request.contentHash then none
  else some (d.remember worker request.roomId request.senderId (some request.contentHash))

def receiptTopic (receipt : Receipt) (original : MessageRecord) : Option Topic :=
  if original.roomId.isSome ∧ receipt.type ≠ .ack then original.topicId.bind d.store.topics.get? else none

/-- The writes of a message. A topic that was not there when the message looked is inserted, unless it is there now: then the message goes on with that one. -/
def commitSend (request : SendRequest) (now : Instant) : Option Topic → Hub
  | none =>
    match request.topic with
    | none => d.finish i (d.store.fanOut request none)
    | some title =>
      match d.store.insertTopic
          { topicId := request.newTopicId, roomId := request.roomId, title, creatorId := request.senderId,
            goal := request.goal, messageCount := 1 } with
      | some store => d.finish i (store.fanOut request (some request.newTopicId))
      | none =>
        match d.store.findTopic request.roomId title with
        | some topic => d.proceed i (.send request now (some topic))
        | none => d.finish i d.store
  | some loaded =>
    match d.store.saveTopic loaded (loaded.receive request.type now request.goal) with
    | some store => d.finish i (store.fanOut request (some loaded.topicId))
    | none => d.finish i d.store

/-- The writes of a receipt; one that is stored already leaves nothing. -/
def commitReceipt (receipt : Receipt) (now : Instant) (original : MessageRecord) (loaded : Option Topic) : Hub :=
  if ∃ x ∈ d.store.records, x.msgId = receipt.msgId ∧ x.receiverId = original.senderId then d.finish i d.store
  else
    let record :=
      { msgId := receipt.msgId, senderId := receipt.sender, receiverId := original.senderId, roomId := original.roomId,
        topicId := original.topicId }
    match loaded with
    | none => d.finish i (d.store.insertRecord record)
    | some topic =>
      match d.store.saveTopic topic (topic.receipt receipt.type now) with
      | some store => d.finish i (store.insertRecord record)
      | none => d.finish i d.store

/-- What a call does next. -/
def commit : Call → Hub
  | .checked request now => d.proceed i (.send request now (request.topic.bind (d.store.findTopic request.roomId)))
  | .send request now loaded => d.commitSend i request now loaded
  | .receipt receipt now original loaded => d.commitReceipt i receipt now original loaded
  | .update loaded changed _ => d.finish i ((d.store.saveTopic loaded changed).getD d.store)

end Hub

/-- The Hub with any number of calls; a request that is refused does not begin. -/
def hub : System Hub Action where
  step d
    | .sendRoomMessage i worker request now =>
      (d.checkDuplicateContent worker request).bind fun d => d.begin i (.checked request now)
    | .receiveReceipt i receipt now =>
      if receipt.type = .message then none
      else
        match d.store.records.find? fun r => r.msgId = receipt.replyTo ∧ r.receiverId = receipt.sender with
        | none => none
        | some original => d.begin i (.receipt receipt now original (d.receiptTopic receipt original))
    | .createTopic topicId roomId title description creatorId goal =>
      (d.store.insertTopic { topicId, roomId, title, description, creatorId, goal }).map fun store => { d with store }
    | .updateTopic i roomId topicId agentId administers body now =>
      match (d.store.topics.get? topicId).filter (·.roomId = roomId) with
      | none => none
      | some topic =>
        if (body.title ≠ none ∨ body.description ≠ none) ∧ agentId ≠ topic.creatorId ∧ administers = false then none
        else (topic.update now body).bind fun changed => d.begin i (.update topic changed body)
    | .next i => (d.calls i).map (d.commit i)
    | .crash i => (d.calls i).map fun _ => d.finish i d.store
    | .forget worker roomId agentId => some (d.remember worker roomId agentId none)

end BotCord.Topics
