import BotCord.Foundation.Run
import Mathlib.Data.List.Sort

/-!
# The messages of a room in the dashboard

`useDashboardChatStore.ts` for the messages of one room that is not left: what is cached, the requests for the newest, the new and the older messages, messages that are shown before the server has them, and recalls. The server is the list of the messages of the room, one row for each, in the order of their records; `get_room_messages` of `app/routers/dashboard.py` answers with at most fifty of them, the newest first. A request is asked, answered from the list as it is at some moment, and its response comes later. Reply activity, reactions, the summaries of rooms and whether there is more to load are left out.
-/

namespace BotCord.RoomCache

/-- An id of a message. A temporary one has the prefix `tmp_`, which no id of the server has. -/
inductive MessageId
  | tmp (n : ℕ)
  | persisted (id : String)
deriving DecidableEq

/-- `id.startsWith("tmp_")` -/
def MessageId.isTmp : MessageId → Bool
  | .tmp _ => true
  | .persisted _ => false

/-- Milliseconds, as `Date.parse` has them. -/
abbrev Instant := ℤ

structure Attachment where
  url : String
  filename : String
  contentType : Option String := none
  sizeBytes : Option ℕ := none
  previewUrl : Option String := none
deriving DecidableEq

structure Recall where
  recalledAt : Option Instant := none
  recalledById : Option String := none
  recalledByType : Option String := none
deriving DecidableEq

/-- `DashboardMessage`, with the attachments of its payload. -/
structure Message where
  hubMsgId : MessageId
  msgId : Option MessageId
  senderId : String
  isMine : Option Bool := none
  text : String := ""
  attachments : Option (List Attachment) := none
  createdAt : Option Instant := none
  state : String := "queued"
  recalled : Option Recall := none
deriving DecidableEq

namespace Message

/-- `dashboardMessageStableId` -/
def stableId (m : Message) : MessageId := m.msgId.getD m.hubMsgId

/-- What the messages are sorted by; a time that cannot be read counts as zero. -/
def time (m : Message) : Instant := m.createdAt.getD 0

end Message

/-- `sameAttachmentIdentity` -/
def sameAttachmentIdentity (a b : Attachment) : Bool :=
  a.url = b.url && a.filename = b.filename && a.contentType = b.contentType && a.sizeBytes = b.sizeBytes

/-- `preserveStableAttachmentPayload` -/
def preserveStableAttachmentPayload (existing incoming : Message) : Message :=
  match existing.attachments, incoming.attachments with
  | some old, some new =>
    if old.length = new.length ∧ (old.zip new).all fun (a, b) => sameAttachmentIdentity a b then
      { incoming with attachments := some old }
    else incoming
  | _, _ => incoming

def sortRoomMessagesChronologically (messages : List Message) : List Message :=
  messages.mergeSort fun a b => a.time ≤ b.time

/-- The existing row of an incoming message, by its stable id and else by its hub id; the last one counts. -/
def existingOf (current : List Message) (incoming : Message) : Option Message :=
  (current.reverse.find? (·.stableId = incoming.stableId)).or (current.reverse.find? (·.hubMsgId = incoming.hubMsgId))

/-- The loaded messages, oldest first, with what is kept of their existing rows. -/
def mergedRows (current loaded : List Message) : List Message :=
  loaded.map fun incoming => ((existingOf current incoming).map (preserveStableAttachmentPayload · incoming)).getD incoming

def unloadedRows (current merged : List Message) : List Message :=
  current.filter fun existing =>
    existing.stableId ∉ merged.map (·.stableId) ∧ existing.hubMsgId ∉ merged.map (·.hubMsgId)

def mergeLoadedRoomMessages (currentMessages : Option (List Message)) (loadedNewestFirst : List Message) : List Message :=
  let loaded := loadedNewestFirst.reverse
  match currentMessages with
  | none | some [] => loaded
  | some current =>
    let merged := mergedRows current loaded
    sortRoomMessagesChronologically (merged ++ unloadedRows current merged)

/-- The new messages of a poll that are not cached yet, oldest first. -/
def deduped (current messages : List Message) : List Message :=
  messages.reverse.filter fun m => m.stableId ∉ current.map (·.stableId) ∧ m.hubMsgId ∉ current.map (·.hubMsgId)

def Matches (new row : Message) : Prop :=
  new.text = row.text ∧ (new.senderId = row.senderId ∨ new.isMine = row.isMine)
deriving Decidable

/-- The rows without the temporary ones that a new message is taken for. -/
def withoutMatchedOptimistic (current new : List Message) : List Message :=
  current.filter fun row => ¬ (row.hubMsgId.isTmp ∧ ∃ m ∈ new, Matches m row)

def appendPolled (currentMessages : Option (List Message)) (messages : List Message) : Option (List Message) :=
  let current := currentMessages.getD []
  let new := deduped current messages
  if new = [] then currentMessages else some (withoutMatchedOptimistic current new ++ new)

def Message.IsNamed (m : Message) (id : MessageId) : Prop := m.hubMsgId = id ∨ m.msgId = some id
deriving Decidable

def insertMessage (currentMessages : Option (List Message)) (message : Message) : Option (List Message) :=
  let current := currentMessages.getD []
  if current.any (·.hubMsgId = message.hubMsgId) then currentMessages else some (current ++ [message])

def patchNamed (id : MessageId) (f : Message → Message) (current : List Message) : List Message :=
  current.map fun m => if m.IsNamed id then f m else m

def patchMessageIdentity (currentMessages : Option (List Message)) (temporaryId : MessageId)
    (hubMsgId : MessageId) (msgId : Option MessageId) : Option (List Message) :=
  currentMessages.map (patchNamed temporaryId fun m => { m with hubMsgId, msgId := msgId.or m.msgId })

def markMessageFailed (currentMessages : Option (List Message)) (temporaryId : MessageId) : Option (List Message) :=
  currentMessages.map (patchNamed temporaryId fun m => { m with state := "failed" })

/-- `buildRecalledMessagePatch` applied to a row. -/
def Message.recallWith (m : Message) (patch : Recall) : Message :=
  { m with text := "", attachments := none, recalled := some patch }

def markMessageRecalled (currentMessages : Option (List Message)) (msgId : MessageId) (patch : Recall) :
    Option (List Message) :=
  currentMessages.map (patchNamed msgId (·.recallWith patch))

def restoreMessage (currentMessages : Option (List Message)) (msgId : MessageId) (previous : Message) :
    Option (List Message) :=
  some (patchNamed msgId (fun _ => previous) (currentMessages.getD []))

/-- Which messages are asked for: the newest, or those before or after one. -/
inductive Cursor
  | newest
  | before (hubMsgId : MessageId)
  | after (hubMsgId : MessageId)
deriving DecidableEq

def pageLimit : ℕ := 50

/-- The newest messages of a list that is oldest first, newest first. -/
def newestFirst (messages : List Message) : List Message := messages.reverse.take pageLimit

/-- `get_room_messages`: `none` if the cursor is no message of the room. Also after a cursor it is the newest messages that are returned. -/
def getRoomMessages (server : List Message) : Cursor → Option (List Message)
  | .newest => some (newestFirst server)
  | .before id =>
    if ∃ m ∈ server, m.hubMsgId = id then some (newestFirst (server.takeWhile (·.hubMsgId ≠ id))) else none
  | .after id =>
    if ∃ m ∈ server, m.hubMsgId = id then some (newestFirst ((server.dropWhile (·.hubMsgId ≠ id)).drop 1)) else none

inductive Request
  | asked (cursor : Cursor)
  | answered (messages : List Message)
deriving DecidableEq

inductive Poll
  | joined
  | request (request : Request)
deriving DecidableEq

structure Send where
  accepted : Option Message := none
  confirmed : Bool := false
deriving DecidableEq

structure RoomState where
  server : List Message
  messages : Option (List Message) := none
  load : Option Request := none
  reloadPending : Bool := false
  poll : Option Poll := none
  more : Option Request := none
  sends : ℕ → Option Send := fun _ => none
  recalls : ℕ → Option (MessageId × Option Message) := fun _ => none
  /-- The ids of the messages that a response has brought. -/
  returned : List MessageId := []

inductive RoomAction
  /-- A message that is none of the sends here reaches the server. -/
  | arrive (message : Message)
  | recallAtServer (hubMsgId : MessageId) (patch : Recall)
  | loadRoomMessages (force : Bool)
  | answerLoad
  | loadResponds
  | loadFails
  /-- With the message that is expected, and whether the summary of the room has changed since it was empty. -/
  | pollNewMessages (expectedHubMsgId : Option MessageId) (snapshotChanged : Bool)
  | answerPoll
  | pollResponds
  | pollFails
  | loadMoreMessages
  | answerMore
  | moreResponds
  | moreFails
  | insertMessage (n : ℕ) (message : Message)
  /-- The server stores what was sent. -/
  | accept (n : ℕ) (message : Message)
  /-- The send returns, with the canonical id or without. -/
  | patchMessageIdentity (n : ℕ) (canonical : Bool)
  /-- The send fails; it may be tried again under its temporary id. -/
  | markMessageFailed (n : ℕ)
  | recallMessage (i : ℕ) (msgId : MessageId) (patch : Recall)
  | recallSucceeds (i : ℕ) (patch : Recall)
  | recallFails (i : ℕ)

namespace RoomState

variable (d : RoomState)

def rows : List Message := d.messages.getD []

def ids : List MessageId := d.server.map (·.hubMsgId)

def Stores (m : Message) : Prop :=
  m.hubMsgId.isTmp = false ∧ (∃ id, m.msgId = some (.persisted id)) ∧
    ∀ x ∈ d.server, x.hubMsgId ≠ m.hubMsgId ∧ x.msgId ≠ m.msgId

instance (m : Message) : Decidable (∃ id, m.msgId = some (.persisted id)) :=
  decidable_of_iff (m.msgId.any (!·.isTmp)) (by
    cases h : m.msgId with
    | none => simp
    | some id => cases id <;> simp [MessageId.isTmp])

instance (m : Message) : Decidable (d.Stores m) := inferInstanceAs (Decidable (_ ∧ _))

def loadRoomMessages (force : Bool) : RoomState :=
  match d.load with
  | some _ => if force then { d with reloadPending := true } else d
  | none => { d with load := some (.asked .newest) }

/-- The end of a load: a poll that waits for it ends, and a reload that was asked for begins. -/
def endLoad : RoomState :=
  let d := { d with load := none, poll := d.poll.filter (· ≠ Poll.joined) }
  if d.reloadPending then { d with reloadPending := false, load := some (.asked .newest) } else d

def joinLoad (force : Bool) : RoomState := { d.loadRoomMessages force with poll := some .joined }

def pollNewMessages (expectedHubMsgId : Option MessageId) (snapshotChanged : Bool) : RoomState :=
  if d.poll.isSome then d
  else
    match d.messages with
    | none => d.joinLoad false
    | some [] => if expectedHubMsgId.isSome || snapshotChanged then d.joinLoad expectedHubMsgId.isSome else d
    | some existing =>
      if expectedHubMsgId.any fun id =>
          (existing.find? (·.hubMsgId = id)).any fun m => m.msgId.elim true (·.isTmp) then
        d.joinLoad true
      else
        match existing.reverse.find? (!·.hubMsgId.isTmp) with
        | none => d.joinLoad expectedHubMsgId.isSome
        | some newestPersisted =>
          { d with poll := some (.request (.asked (.after newestPersisted.hubMsgId))) }

def loadMoreMessages : RoomState :=
  if d.more.isSome then d
  else
    match d.messages with
    | none | some [] => d
    | some (oldest :: _) => { d with more := some (.asked (.before oldest.hubMsgId)) }

def setSend (n : ℕ) (send : Send) : RoomState := { d with sends := Function.update d.sends n (some send) }

def setRecall (i : ℕ) (recalled : Option (MessageId × Option Message)) : RoomState :=
  { d with recalls := Function.update d.recalls i recalled }

def bring (messages : List Message) (current : Option (List Message)) : RoomState :=
  { d with messages := current, returned := d.returned ++ messages.map (·.hubMsgId) }

end RoomState

def roomMessages : System RoomState RoomAction where
  step d
    | .arrive m => if d.Stores m then some { d with server := d.server ++ [m] } else none
    | .recallAtServer id patch =>
      some { d with server := d.server.map fun m => if m.hubMsgId = id then m.recallWith patch else m }
    | .loadRoomMessages force => some (d.loadRoomMessages force)
    | .answerLoad =>
      match d.load with
      | some (.asked cursor) => (getRoomMessages d.server cursor).map fun page => { d with load := some (.answered page) }
      | _ => none
    | .loadResponds =>
      match d.load with
      | some (.answered page) => some (d.bring page (some (mergeLoadedRoomMessages d.messages page))).endLoad
      | _ => none
    | .loadFails => if d.load.isSome then some d.endLoad else none
    | .pollNewMessages expected snapshotChanged => some (d.pollNewMessages expected snapshotChanged)
    | .answerPoll =>
      match d.poll with
      | some (.request (.asked cursor)) =>
        (getRoomMessages d.server cursor).map fun page => { d with poll := some (.request (.answered page)) }
      | _ => none
    | .pollResponds =>
      match d.poll with
      | some (.request (.answered page)) => some { d.bring page (appendPolled d.messages page) with poll := none }
      | _ => none
    | .pollFails =>
      match d.poll with
      | some (.request _) => some { d with poll := none }
      | _ => none
    | .loadMoreMessages => some d.loadMoreMessages
    | .answerMore =>
      match d.more with
      | some (.asked cursor) => (getRoomMessages d.server cursor).map fun page => { d with more := some (.answered page) }
      | _ => none
    | .moreResponds =>
      match d.more with
      | some (.answered page) =>
        some { d.bring page (some (mergeLoadedRoomMessages d.messages page)) with more := none }
      | _ => none
    | .moreFails => if d.more.isSome then some { d with more := none } else none
    | .insertMessage n m =>
      if d.sends n = none ∧ m.hubMsgId = .tmp n ∧ m.msgId = some (.tmp n) then
        some { d.setSend n {} with messages := insertMessage d.messages m }
      else none
    | .accept n m =>
      match d.sends n with
      | some send =>
        if send.accepted = none ∧ d.Stores m then
          some { d.setSend n { send with accepted := some m } with server := d.server ++ [m] }
        else none
      | none => none
    | .patchMessageIdentity n canonical =>
      match d.sends n with
      | some { accepted := some m, confirmed := false } =>
        some { d.setSend n { accepted := some m, confirmed := true } with
          messages := patchMessageIdentity d.messages (.tmp n) m.hubMsgId (if canonical then m.msgId else none) }
      | _ => none
    | .markMessageFailed n =>
      match d.sends n with
      | some { confirmed := false, .. } => some { d with messages := markMessageFailed d.messages (.tmp n) }
      | _ => none
    | .recallMessage i msgId patch =>
      if d.recalls i = none then
        some { d.setRecall i (some (msgId, d.rows.find? (·.IsNamed msgId))) with
          messages := markMessageRecalled d.messages msgId patch }
      else none
    | .recallSucceeds i patch =>
      match d.recalls i with
      | some (msgId, _) => some { d.setRecall i none with messages := markMessageRecalled d.messages msgId patch }
      | none => none
    | .recallFails i =>
      match d.recalls i with
      | some (msgId, some previous) => some { d.setRecall i none with messages := restoreMessage d.messages msgId previous }
      | some (_, none) => some (d.setRecall i none)
      | none => none

end BotCord.RoomCache
