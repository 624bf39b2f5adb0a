import BotCord.Foundation.Keyed
import BotCord.Foundation.Run
import BotCord.Kb.Path
import BotCord.Sends.Service

/-!
# Sends from the dashboard

`human_room_send` of `app/routers/dashboard.py` with `reserve_room_send` of `hub/services/dashboard_send_requests.py`. A send reserves its key, checks, fans out and stores its response in one transaction, which others see when it commits; an insert of a key waits for the transaction that is inserting it. The anti-spam state is in the memory of a worker and not part of the transaction. What the database answers to the other selects comes with the step, a send that fails a check before its reservation is one that does not begin, and a digest is taken for what it is the digest of.
-/

namespace BotCord.RoomSends

open Sends (AgentId RoomId Time ContentHash Payload HttpError SendError AntiSpam checkSlowMode checkDuplicateContent
  recordSlowModeSend)

abbrev UserId := String

abbrev WorkerId := ℕ

abbrev MsgId := ℕ

abbrev HubMsgId := ℕ

structure ChatAttachment where
  filename : String
  url : String
  contentType : Option String := none
  sizeBytes : Option ℕ := none
deriving DecidableEq

structure HumanRoomSendBody where
  text : String := ""
  mentions : Option (List String) := none
  topic : Option String := none
  topicId : Option String := none
  attachments : Option (List ChatAttachment) := none
  replyTo : Option String := none
deriving DecidableEq

structure Request where
  userId : UserId
  senderId : AgentId
  roomId : RoomId
  clientRequestId : Option String := none
  body : HumanRoomSendBody
deriving DecidableEq

/-- What `request_id` is the digest of. -/
abbrev Key := UserId × AgentId × RoomId × String

def Request.key (r : Request) : Option Key :=
  (r.clientRequestId.filter (· ≠ "")).map fun id => (r.userId, r.senderId, r.roomId, id)

structure Response where
  hubMsgId : Option HubMsgId
  msgId : MsgId
  roomId : RoomId
  status : String := "queued"
  topicId : Option String
deriving DecidableEq

structure DashboardSendRequest where
  requestId : Key
  fingerprint : HumanRoomSendBody
  responseJson : Option Response := none

structure MessageRecord where
  hubMsgId : HubMsgId
  msgId : MsgId
  senderId : AgentId
  receiverId : AgentId
  roomId : RoomId
  topic : Option String
  topicId : Option String
  text : String
  attachments : List ChatAttachment
  mentioned : Bool
  replyToMsgId : Option MsgId
  sourceType : String := "dashboard_human_room"
  sourceUserId : UserId

/-- The anti-spam state with what else the checks call: `normalize_file_url`, and `json.dumps` of a payload. -/
structure Env (σ₁ σ₂ : Type) extends Sends.Env σ₁ σ₂ where
  normalizeFileUrl : String → Option String
  dumps : String → List ChatAttachment → String

variable {σ₁ σ₂ : Type} (env : Env σ₁ σ₂)

def normalizeAttachment (att : ChatAttachment) : Except HttpError ChatAttachment :=
  match env.normalizeFileUrl att.url with
  | none => .error ⟨400, s!"Invalid attachment URL: {att.url}"⟩
  | some url => .ok { att with url }

/-- The text and the attachments of a message, of which it has one at least. -/
def checkContent (body : HumanRoomSendBody) : Except HttpError (String × List ChatAttachment) :=
  match (body.attachments.getD []).mapM (normalizeAttachment env) with
  | .error e => .error e
  | .ok attachments =>
    let text := String.ofList (Kb.strip body.text.toList)
    if text = "" ∧ attachments = [] then .error ⟨400, "Message must contain text or attachments"⟩
    else .ok (text, attachments)

def collectMentions : List String → List String → List String
  | seen, [] => seen
  | seen, m :: rest =>
    if m ∈ seen then collectMentions seen rest
    else if m = "@all" then ["@all"]
    else if m.startsWith "ag_" || m.startsWith "hu_" then collectMentions (seen ++ [m]) rest
    else collectMentions seen rest

def normalizeMentions (roomId : RoomId) (mentions : Option (List String)) : Except HttpError (List String) :=
  let raw := if roomId.startsWith "rm_oc_" then [] else mentions.getD []
  if 20 < raw.length then .error ⟨400, "Too many mentions (max 20)"⟩ else .ok (collectMentions [] raw)

structure Send where
  worker : WorkerId
  request : Request
  /-- The sender is an agent, and not its user. -/
  agentAnchored : Bool := false
  slowModeSeconds : Option ℤ := none
  role : Sends.RoomRole := .member

namespace Send

variable (s : Send)

def room : Sends.Room where
  roomId := s.request.roomId
  slowModeSeconds := s.slowModeSeconds
  members := []

def effectiveMember : Sends.RoomMember where
  agentId := s.request.senderId
  role := s.role

def payload (text : String) (attachments : List ChatAttachment) : Payload := { text := env.dumps text attachments }

def slot : RoomId × AgentId := (s.request.roomId, s.request.senderId)

/-- The checks on the anti-spam state, which is written when they pass. -/
def checkSpam (payload : Payload) (now : Time) (m : AntiSpam σ₁ σ₂) : Except SendError Unit × AntiSpam σ₁ σ₂ :=
  match checkSlowMode env.toEnv s.room s.effectiveMember now m with
  | (.error e, m) => (.error e, m)
  | (.ok (), m) =>
    match checkDuplicateContent env.toEnv s.request.roomId s.request.senderId payload now m with
    | (.error e, m) => (.error e, m)
    | (.ok (), m) => (.ok (), recordSlowModeSend env.toEnv s.request.roomId s.request.senderId now m)

end Send

structure Member where
  agentId : AgentId
  isAgent : Bool
  muted : Bool := false

structure Answers where
  members : List Member
  blockers : List AgentId := []
  optedOut : List AgentId := []
  replyTarget : Option MsgId := none

namespace Answers

variable (a : Answers) (agentAnchored : Bool)

def receivers : List Member :=
  a.members.filter fun m => !m.muted && m.agentId ∉ a.blockers && (agentAnchored || !m.isAgent || m.agentId ∉ a.optedOut)

/-- A mention of everyone stays, and of others those of members. -/
def mentioned (mentions : List String) (receiverId : AgentId) : Bool :=
  "@all" ∈ mentions || (receiverId ∈ mentions && receiverId ∈ a.members.map Member.agentId)

end Answers

structure Content where
  topicId : Option String
  topicTitle : Option String
  text : String
  attachments : List ChatAttachment
  mentions : List String

/-- What a send is about to commit. -/
structure Message where
  records : List MessageRecord
  response : Response

/-- The message, under ids from `drawn` on. -/
def Send.message (s : Send) (c : Content) (a : Answers) (drawn : ℕ) : Message where
  records := ((a.receivers s.agentAnchored).map Member.agentId).zipIdx.map fun (receiverId, n) =>
    { hubMsgId := drawn + 1 + n, msgId := drawn, senderId := s.request.senderId, receiverId, roomId := s.request.roomId
      topic := c.topicTitle, topicId := c.topicId, text := c.text, attachments := c.attachments
      mentioned := a.mentioned c.mentions receiverId, replyToMsgId := s.request.body.replyTo.bind fun _ => a.replyTarget
      sourceUserId := s.request.userId }
  response :=
    { hubMsgId := if a.receivers s.agentAnchored = [] then none else some (drawn + 1)
      msgId := drawn, roomId := s.request.roomId, topicId := c.topicId }

inductive Stage
  | reserve | checks
  | fanOut (c : Content)
  | commit (m : Message)
  | notify (m : Message)

def Stage.holds : Stage → Bool
  | .checks | .fanOut _ | .commit _ => true
  | .reserve | .notify _ => false

/-- The send has written the anti-spam state and not committed. -/
def Stage.pending : Stage → Bool
  | .fanOut _ | .commit _ => true
  | .reserve | .checks | .notify _ => false

structure Task where
  id : ℕ
  send : Send
  stage : Stage

def Task.goto (t : Task) (stage : Stage) : Task := { t with stage }

theorem Task.id_goto (stage : Stage) (t : Task) : (t.goto stage).id = t.id := rfl

inductive Event
  | stored (i : ℕ) (request : Request) (response : Response)
  | notified (i : ℕ) (request : Request)
  | answered (i : ℕ) (request : Request) (answer : Except HttpError Response)
deriving DecidableEq

/-- What was written to a cache of a worker, and by which send of the dashboard if it was one. -/
structure Mark (α : Type) where
  worker : WorkerId
  slot : RoomId × AgentId
  value : α
  time : Time
  writer : Option ℕ := none

def Send.mark {α : Type} (s : Send) (i : ℕ) (value : α) (now : Time) : Mark α := ⟨s.worker, s.slot, value, now, some i⟩

structure Hub (σ₁ σ₂ : Type) where
  now : Time := 0
  requests : Keyed DashboardSendRequest.requestId := {}
  records : List MessageRecord := []
  memory : WorkerId → AntiSpam σ₁ σ₂
  /-- Ids of sends and of messages that were drawn are below. -/
  drawn : ℕ := 0
  calls : Keyed Task.id := {}
  /-- The latest first. -/
  log : List Event := []
  hashes : List (Mark ContentHash) := []
  times : List (Mark Time) := []

inductive Action
  | tick (nanoseconds : ℕ)
  | send (s : Send)
  /-- A send of another route passes the checks, or one of them. -/
  | otherContent (worker : WorkerId) (slot : RoomId × AgentId) (payload : Payload)
  | otherSend (worker : WorkerId) (slot : RoomId × AgentId)
  | reserve (i : ℕ)
  /-- The checks, with the title of the topic if it is found. -/
  | check (i : ℕ) (title : Option String)
  | fanOut (i : ℕ) (answers : Answers)
  | commit (i : ℕ)
  | notify (i : ℕ)
  /-- A send fails or is cut off where it is. -/
  | abort (i : ℕ)

namespace Hub

variable (d : Hub σ₁ σ₂) (i : ℕ)

def goto (stage : Stage) : Hub σ₁ σ₂ := { d with calls := d.calls.modify (·.id = i) (·.goto stage) (Task.id_goto stage) }

def finish : Hub σ₁ σ₂ := { d with calls := d.calls.remove (·.id = i) }

def answer (request : Request) (answer : Except HttpError Response) : Hub σ₁ σ₂ :=
  { d with log := .answered i request answer :: d.log }.finish i

def Reserved (key : Key) : Prop := ∃ t ∈ d.calls, t.stage.holds = true ∧ t.send.request.key = some key
deriving Decidable

/-- The `answer` of the row that is there. -/
def replay (request : Request) (row : DashboardSendRequest) : Except HttpError Response :=
  if row.fingerprint ≠ request.body then .error ⟨409, "idempotency_key_conflict"⟩
  else match row.responseJson with
    | none => .error ⟨409, "send_request_incomplete"⟩
    | some response => .ok response

/-- `reserve_room_send`. -/
def reserve (request : Request) : Option (Hub σ₁ σ₂) :=
  match request.key with
  | none => some (d.goto i .checks)
  | some key =>
    if d.Reserved key then none
    else match d.requests.get? key with
      | none => some (d.goto i .checks)
      | some row => some (d.answer i request (replay request row))

def remember (worker : WorkerId) (m : AntiSpam σ₁ σ₂) : Hub σ₁ σ₂ := { d with memory := Function.update d.memory worker m }

/-- A send has passed the checks on the anti-spam state. -/
def record (s : Send) (payload : Payload) : Hub σ₁ σ₂ :=
  { d with
    hashes := d.hashes ++ [s.mark i (env.contentHash payload) d.now]
    times := d.times ++ [s.mark i d.now d.now] }

/-- The checks from the topic to the mentions: nothing else happens in the worker between them. -/
def check (s : Send) (title : Option String) : Hub σ₁ σ₂ :=
  let topicId := s.request.body.topicId.filter (· ≠ "")
  if topicId ≠ none ∧ title = none then d.answer i s.request (.error ⟨404, "Topic not found"⟩)
  else match checkContent env s.request.body with
    | .error e => d.answer i s.request (.error e)
    | .ok (text, attachments) =>
      let payload := Send.payload env text attachments
      match s.checkSpam env payload d.now (d.memory s.worker) with
      | (.error e, m) => (d.remember s.worker m).answer i s.request (.error e.http)
      | (.ok (), m) =>
        let d := (d.remember s.worker m).record env i s payload
        match normalizeMentions s.request.roomId s.request.body.mentions with
        | .error e => d.answer i s.request (.error e)
        | .ok mentions =>
          d.goto i (.fanOut { topicId, topicTitle := topicId.bind fun _ => title, text, attachments, mentions })

def fanOut (s : Send) (c : Content) (a : Answers) : Hub σ₁ σ₂ :=
  if s.request.body.replyTo ≠ none ∧ a.replyTarget = none then
    d.answer i s.request (.error ⟨400, "reply_target_not_found"⟩)
  else
    let m := s.message c a d.drawn
    { d with drawn := d.drawn + 1 + m.records.length }.goto i (.commit m)

/-- The records, the key and the response are committed together. -/
def commit (request : Request) (m : Message) : Option (Hub σ₁ σ₂) :=
  let d := { d with records := d.records ++ m.records, log := .stored i request m.response :: d.log }
  match request.key with
  | none => some (d.goto i (.notify m))
  | some key =>
    (d.requests.insert? ⟨key, request.body, some m.response⟩).map fun requests => { d with requests }.goto i (.notify m)

def notify (request : Request) (m : Message) : Hub σ₁ σ₂ :=
  { d with log := .notified i request :: d.log }.answer i request (.ok m.response)

end Hub

/-- The Hub with any number of sends. -/
def hub : System (Hub σ₁ σ₂) Action where
  step d
    | .tick nanoseconds => some { d with now := d.now + nanoseconds }
    | .send s => (d.calls.insert? ⟨d.drawn, s, .reserve⟩).map fun calls => { d with calls, drawn := d.drawn + 1 }
    | .otherContent worker slot payload =>
      let (checked, m) := checkDuplicateContent env.toEnv slot.1 slot.2 payload d.now (d.memory worker)
      some { d.remember worker m with
        hashes := if checked.isOk then d.hashes ++ [{ worker, slot, value := env.contentHash payload, time := d.now }] else d.hashes }
    | .otherSend worker slot =>
      some { d.remember worker (recordSlowModeSend env.toEnv slot.1 slot.2 d.now (d.memory worker)) with
        times := d.times ++ [{ worker, slot, value := d.now, time := d.now }] }
    | .reserve i =>
      (d.calls.get? i).bind fun t => match t.stage with
        | .reserve => d.reserve i t.send.request
        | _ => none
    | .check i title =>
      (d.calls.get? i).bind fun t => match t.stage with
        | .checks => some (d.check env i t.send title)
        | _ => none
    | .fanOut i answers =>
      (d.calls.get? i).bind fun t => match t.stage with
        | .fanOut c => some (d.fanOut i t.send c answers)
        | _ => none
    | .commit i =>
      (d.calls.get? i).bind fun t => match t.stage with
        | .commit m => d.commit i t.send.request m
        | _ => none
    | .notify i =>
      (d.calls.get? i).bind fun t => match t.stage with
        | .notify m => some (d.notify i t.send.request m)
        | _ => none
    | .abort i => (d.calls.get? i).map fun _ => d.finish i

end BotCord.RoomSends
