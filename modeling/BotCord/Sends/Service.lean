import BotCord.Foundation.Cache
import BotCord.Foundation.Window
import Mathlib.Algebra.Order.Group.Int
import Mathlib.Data.String.Basic

/-!
# Sending a message

`send_message` of `hub/routers/hub.py` with the anti-spam state it keeps in memory. That state is written as the checks run and nothing takes it back when a later check fails, so every function here hands it on whether it returns or raises. Times are nanoseconds of the monotonic clock, one reading for each function that reads it. What the database holds, and what the admission gate and `record_response` answer at that moment, comes with the attempt; what a sent message leaves there besides the answer is left out.
-/

namespace BotCord.Sends

abbrev AgentId := String
abbrev RoomId := String
abbrev Time := ℤ
abbrev ContentHash := String

def second : Time := 1000000000
def minute : Time := 60 * second

def RATE_LIMIT_PER_MINUTE : ℕ := 20

inductive MessageType
  | message | ack | result | error | contactRequest | contactRequestResponse | contactRemoved | system | cloudRun
deriving DecidableEq

inductive RoomRole
  | owner | admin | member
deriving DecidableEq

/-- A payload: what it has under `response`, if that is not null, and all of it as text. -/
structure Payload where
  response : Option String := none
  text : String
deriving DecidableEq

structure Envelope where
  msgId : String
  ts : ℤ
  sender : AgentId
  recipient : String
  type : MessageType := .message
  replyTo : Option String := none
  topic : Option String := none
  goal : Option String := none
  payload : Payload
  payloadHash : String
  keyId : String
  mentions : Option (List String) := none
deriving DecidableEq

/-- Ids are generated with a prefix. -/
structure Agent where
  agentId : AgentId
  nonempty : agentId ≠ ""

structure RoomMember where
  agentId : AgentId
  role : RoomRole := .member
  canSend : Option Bool := none

structure Room where
  roomId : RoomId
  defaultSend : Bool := true
  slowModeSeconds : Option ℤ := none
  members : List RoomMember

structure MessageRecord where
  hubMsgId : String
  msgId : String
  senderId : AgentId
  receiverId : String
  roomId : Option RoomId
  envelope : Envelope
deriving DecidableEq

structure SigningKey where
  keyId : String
  agentId : AgentId
  pubkey : String
  active : Bool := true

structure HttpError where
  status : ℕ
  detail : String
deriving DecidableEq

inductive SendError
  | senderDoesNotMatchToken
  | sendInvalidType
  | rateLimitExceeded (count : ℕ) (retryAfter : ℤ)
  | conversationRateLimitExceeded (limit count : ℕ) (retryAfter : ℤ)
  | timestampOutOfRange
  | payloadHashMismatch
  | signingKeyNotFoundOrInactive
  | keyDoesNotBelongToSender
  | signatureVerificationFailed
  | messageIdUsed
  | unknownAgent
  | admission (e : HttpError)
  | roomNotFound
  | notAMember
  | onlyOwnerAdminCanPost
  | slowModeWait (limit : ℤ) (remaining : Time)
  | duplicateContent
  | replyTargetNotFound
  | replyTargetCrossRoom
  | response (e : HttpError)
deriving DecidableEq

/-- The answer to the client: the status and the message key, or the text where the code writes one. -/
def SendError.http : SendError → HttpError
  | .senderDoesNotMatchToken => ⟨403, "sender_does_not_match_token"⟩
  | .sendInvalidType => ⟨400, "send_invalid_type"⟩
  | .rateLimitExceeded _ _ => ⟨429, "rate_limit_exceeded"⟩
  | .conversationRateLimitExceeded _ _ _ => ⟨429, "conversation_rate_limit_exceeded"⟩
  | .timestampOutOfRange => ⟨400, "timestamp_out_of_range"⟩
  | .payloadHashMismatch => ⟨400, "payload_hash_mismatch"⟩
  | .signingKeyNotFoundOrInactive => ⟨400, "signing_key_not_found_or_inactive"⟩
  | .keyDoesNotBelongToSender => ⟨400, "key_does_not_belong_to_sender"⟩
  | .signatureVerificationFailed => ⟨400, "signature_verification_failed"⟩
  | .messageIdUsed => ⟨409, "Message ID already used with a different body"⟩
  | .unknownAgent => ⟨404, "unknown_agent"⟩
  | .admission e => e
  | .roomNotFound => ⟨404, "room_not_found"⟩
  | .notAMember => ⟨403, "not_a_member"⟩
  | .onlyOwnerAdminCanPost => ⟨403, "only_owner_admin_can_post"⟩
  | .slowModeWait _ _ => ⟨429, "slow_mode_wait"⟩
  | .duplicateContent => ⟨429, "duplicate_content"⟩
  | .replyTargetNotFound => ⟨400, "reply_target_not_found"⟩
  | .replyTargetCrossRoom => ⟨400, "reply_target_cross_room"⟩
  | .response e => e

inductive Delivery
  | queued
  | existing (record : MessageRecord)
deriving DecidableEq

structure Database where
  agents : List Agent := []
  rooms : List Room := []
  records : List MessageRecord := []
  signingKeys : List SigningKey := []
  /-- What `check_direct_admission` or the checks of a contact request raise. -/
  admission : Option HttpError := none
  /-- What `record_response` raises. -/
  response : Option HttpError := none

structure Clock where
  limits : Time
  slowMode : Time
  content : Time
  recorded : Time
  ordered : limits ≤ slowMode ∧ slowMode ≤ content ∧ content ≤ recorded

structure Attempt where
  currentAgent : AgentId
  envelope : Envelope
  database : Database
  clock : Clock
  serverTime : ℤ

/-- The configuration, the two caches and the functions of other modules that the checks call. -/
structure Env (σ₁ σ₂ : Type) where
  PAIR_RATE_LIMIT_PER_MINUTE : ℕ
  slowModeLastSend : Cache (RoomId × AgentId) Time Time σ₁
  lastMsgHash : Cache (RoomId × AgentId) ContentHash Time σ₂
  contentHash : Payload → ContentHash
  verifyPayloadHash : Payload → String → Bool
  verifyEnvelopeSig : Envelope → String → Bool

structure AntiSpam (σ₁ σ₂ : Type) where
  rateWindows : AgentId → List Time
  pairRateWindows : AgentId × String → List Time
  slowModeLastSend : σ₁
  lastMsgHash : σ₂

variable {σ₁ σ₂ : Type} (env : Env σ₁ σ₂)

/-- The state of a worker that has just started. -/
def AntiSpam.start : AntiSpam σ₁ σ₂ where
  rateWindows _ := []
  pairRateWindows _ := []
  slowModeLastSend := env.slowModeLastSend.empty
  lastMsgHash := env.lastMsgHash.empty

/-- `max(1, math.ceil(remaining))`, in seconds. -/
def retryAfter (remaining : Time) : ℤ := max 1 (-(-remaining / second))

/-- The seconds until the first entry of a window is too old to count. -/
def windowRetryAfter (now : Time) (window : List Time) : ℤ := retryAfter (minute - (now - window.headD now))

def checkRateLimit (agentId : AgentId) (targetId : String) (now : Time) (s : AntiSpam σ₁ σ₂) :
    Except SendError Unit × AntiSpam σ₁ σ₂ :=
  let window := Window.live minute now (s.rateWindows agentId)
  if RATE_LIMIT_PER_MINUTE ≤ window.length then
    (.error (.rateLimitExceeded window.length (windowRetryAfter now window)),
      { s with rateWindows := Function.update s.rateWindows agentId window })
  else
    let s := { s with rateWindows := Function.update s.rateWindows agentId (window ++ [now]) }
    if targetId = "" then (.ok (), s)
    else
      let pairKey := (agentId, targetId)
      let pairWindow := Window.live minute now (s.pairRateWindows pairKey)
      if env.PAIR_RATE_LIMIT_PER_MINUTE ≤ pairWindow.length then
        (.error (.conversationRateLimitExceeded env.PAIR_RATE_LIMIT_PER_MINUTE pairWindow.length
            (windowRetryAfter now pairWindow)),
          { s with pairRateWindows := Function.update s.pairRateWindows pairKey pairWindow })
      else (.ok (), { s with pairRateWindows := Function.update s.pairRateWindows pairKey (pairWindow ++ [now]) })

def checkSlowMode (room : Room) (member : RoomMember) (now : Time) (s : AntiSpam σ₁ σ₂) :
    Except SendError Unit × AntiSpam σ₁ σ₂ :=
  let seconds := room.slowModeSeconds.getD 0
  if seconds = 0 ∨ member.role = .owner ∨ member.role = .admin then (.ok (), s)
  else
    let (last, cache) := env.slowModeLastSend.get (room.roomId, member.agentId) now s.slowModeLastSend
    let s := { s with slowModeLastSend := cache }
    match last with
    | none => (.ok (), s)
    | some last =>
      let remaining := seconds * second - (now - last)
      if 0 < remaining then (.error (.slowModeWait seconds remaining), s) else (.ok (), s)

def recordSlowModeSend (roomId : RoomId) (agentId : AgentId) (now : Time) (s : AntiSpam σ₁ σ₂) : AntiSpam σ₁ σ₂ :=
  { s with slowModeLastSend := env.slowModeLastSend.set (roomId, agentId) now now s.slowModeLastSend }

def checkDuplicateContent (roomId : RoomId) (senderId : AgentId) (payload : Payload) (now : Time)
    (s : AntiSpam σ₁ σ₂) : Except SendError Unit × AntiSpam σ₁ σ₂ :=
  let key := (roomId, senderId)
  let (last, cache) := env.lastMsgHash.get key now s.lastMsgHash
  if last = some (env.contentHash payload) then (.error .duplicateContent, { s with lastMsgHash := cache })
  else (.ok (), { s with lastMsgHash := env.lastMsgHash.set key (env.contentHash payload) now cache })

def checkTimestamp (ts serverTime : ℤ) : Bool := (serverTime - ts).natAbs ≤ 300

def verifyEnvelope (a : Attempt) : Except SendError Unit :=
  if ¬ checkTimestamp a.envelope.ts a.serverTime then .error .timestampOutOfRange
  else if ¬ env.verifyPayloadHash a.envelope.payload a.envelope.payloadHash then .error .payloadHashMismatch
  else match a.database.signingKeys.find? fun key => key.keyId = a.envelope.keyId ∧ key.active with
    | none => .error .signingKeyNotFoundOrInactive
    | some key =>
      if key.agentId ≠ a.envelope.sender then .error .keyDoesNotBelongToSender
      else if ¬ env.verifyEnvelopeSig a.envelope (key.pubkey.drop "ed25519:".length).toString then
        .error .signatureVerificationFailed
      else .ok ()

def messageReplyTo (envelope : Envelope) : Option String :=
  if envelope.type ≠ .message then none else envelope.replyTo.filter (· ≠ "")

def loadReplyTarget (db : Database) (roomId : RoomId) (replyTo : String) : Except SendError MessageRecord :=
  let target :=
    if replyTo.startsWith "h_" then db.records.find? (·.hubMsgId = replyTo) else db.records.find? (·.msgId = replyTo)
  match target with
  | none => .error .replyTargetNotFound
  | some target => if target.roomId ≠ some roomId then .error .replyTargetCrossRoom else .ok target

def checkReplyTarget (a : Attempt) (roomId : Option RoomId) : Except SendError Unit :=
  match messageReplyTo a.envelope, roomId with
  | none, _ => .ok ()
  | some _, none => .error .replyTargetCrossRoom
  | some replyTo, some roomId => (loadReplyTarget a.database roomId replyTo).map fun _ => ()

def recordResponse (a : Attempt) : Except SendError Unit :=
  if a.envelope.payload.response.isNone then .ok ()
  else match a.database.response with
    | none => .ok ()
    | some e => .error (.response e)

def canSend (room : Room) (member : RoomMember) : Bool :=
  if member.role = .owner then true
  else match member.canSend with
    | some allowed => allowed
    | none => if member.role = .admin then true else room.defaultSend

def storeRoomMessage (a : Attempt) : Except SendError Delivery :=
  match checkReplyTarget a (some a.envelope.recipient) with
  | .error e => .error e
  | .ok () =>
  match recordResponse a with
  | .error e => .error e
  | .ok () => .ok .queued

/-- Owner chats and signed responses are exempt from the content check. -/
def Attempt.ContentChecked (a : Attempt) : Prop :=
  ¬ a.envelope.recipient.startsWith "rm_oc_" ∧ a.envelope.payload.response = none
deriving Decidable

def sendRoomMessage (a : Attempt) (s : AntiSpam σ₁ σ₂) : Except SendError Delivery × AntiSpam σ₁ σ₂ :=
  match a.database.rooms.find? (·.roomId = a.envelope.recipient) with
  | none => (.error .roomNotFound, s)
  | some room =>
  match room.members.find? (·.agentId = a.envelope.sender) with
  | none => (.error .notAMember, s)
  | some member =>
  if ¬ canSend room member then (.error .onlyOwnerAdminCanPost, s)
  else match checkSlowMode env room member a.clock.slowMode s with
  | (.error e, s) => (.error e, s)
  | (.ok (), s) =>
  match
    if a.ContentChecked then
      checkDuplicateContent env a.envelope.recipient a.envelope.sender a.envelope.payload a.clock.content s
    else (.ok (), s) with
  | (.error e, s) => (.error e, s)
  | (.ok (), s) =>
    (storeRoomMessage a, recordSlowModeSend env a.envelope.recipient a.envelope.sender a.clock.recorded s)

/-- The id of the room of two agents; a contact request has none. -/
def dmRoom (envelope : Envelope) : Option RoomId :=
  if envelope.type = .contactRequest then none
  else if envelope.sender ≤ envelope.recipient then
    some ("rm_dm_" ++ envelope.sender ++ "_" ++ envelope.recipient)
  else some ("rm_dm_" ++ envelope.recipient ++ "_" ++ envelope.sender)

def sendDirectMessage (a : Attempt) : Except SendError Delivery :=
  if ¬ a.database.agents.any (·.agentId = a.envelope.recipient) then .error .unknownAgent
  else match a.database.admission with
  | some e => .error (.admission e)
  | none =>
  match checkReplyTarget a (dmRoom a.envelope) with
  | .error e => .error e
  | .ok () =>
  match recordResponse a with
  | .error e => .error e
  | .ok () =>
  match a.database.records.find? fun record =>
      record.msgId = a.envelope.msgId ∧ record.receiverId = a.envelope.recipient with
  | some record => .ok (.existing record)
  | none => .ok .queued

/-- The committed message that a signed response repeats, if its sender and body are the same. -/
def retried (a : Attempt) : Except SendError (Option MessageRecord) :=
  if a.envelope.payload.response = none then .ok none
  else match a.database.records.find? (·.msgId = a.envelope.msgId) with
    | none => .ok none
    | some record =>
      let original := record.envelope
      let incoming := a.envelope
      if record.senderId ≠ a.currentAgent ∨ original.recipient ≠ incoming.recipient ∨ original.type ≠ incoming.type ∨
          original.payload ≠ incoming.payload ∨ original.replyTo ≠ incoming.replyTo ∨
          original.topic ≠ incoming.topic ∨ original.goal ≠ incoming.goal ∨ original.mentions ≠ incoming.mentions then
        .error .messageIdUsed
      else .ok (some record)

def checkEnvelope (a : Attempt) : Except SendError Unit :=
  if a.envelope.sender ≠ a.currentAgent then .error .senderDoesNotMatchToken
  else if a.envelope.type ∉ [.message, .contactRequest, .result, .error] then .error .sendInvalidType
  else .ok ()

/-- What comes after the rate limits. -/
def deliver (a : Attempt) (s : AntiSpam σ₁ σ₂) : Except SendError Delivery × AntiSpam σ₁ σ₂ :=
  match verifyEnvelope env a with
  | .error e => (.error e, s)
  | .ok () =>
  match retried a with
  | .error e => (.error e, s)
  | .ok (some record) => (.ok (.existing record), s)
  | .ok none =>
    if a.envelope.recipient.startsWith "rm_" then sendRoomMessage env a s else (sendDirectMessage a, s)

def sendMessage (a : Attempt) (s : AntiSpam σ₁ σ₂) : Except SendError Delivery × AntiSpam σ₁ σ₂ :=
  match checkEnvelope a with
  | .error e => (.error e, s)
  | .ok () =>
  match checkRateLimit env a.currentAgent a.envelope.recipient a.clock.limits s with
  | (.error e, s) => (.error e, s)
  | (.ok (), s) => deliver env a s

end BotCord.Sends
