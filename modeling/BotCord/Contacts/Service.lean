import BotCord.Rooms.Service
import BotCord.Subscriptions.Store

/-!
# Contacts

Who is a contact of whom, and the requests and approvals that lead to it: `hub/routers/contact_requests.py`, the contact requests of `app/routers/humans.py`, `app/routers/dashboard.py` and `_send_direct_message` in `hub/routers/hub.py`, the friend invites of `hub/invite_ops.py`, and `remove_contact` of `hub/routers/contacts.py`.

An id says by its prefix whether it is an agent's or a human's, and a row says it again in a column beside the id. The calls come one after the other here, each as the change of the tables it commits. Whether a caller is who it says, the policies that a message passes first, aliases, names and notifications are left out.
-/

namespace BotCord.Contacts

open Rooms (Participant ApprovalState)
open Subscriptions (ParticipantType)
open Spaces (UserId AgentId Instant)

def participantTypeFor : Participant → ParticipantType
  | .human _ => .human
  | .agent _ => .agent

structure Contact where
  ownerType : ParticipantType := .agent
  peerType : ParticipantType := .agent
deriving DecidableEq

inductive ContactRequestState
  | pending | accepted | rejected
deriving DecidableEq

structure ContactRequest where
  id : ℕ
  fromAgentId : Participant
  fromType : ParticipantType := .agent
  toAgentId : Participant
  toType : ParticipantType := .agent
  state : ContactRequestState := .pending
  message : Option String := none

/-- The payload of an entry that is a contact request. A message of an agent says nothing of the type. -/
structure Payload where
  fromParticipantId : Participant
  fromType : Option ParticipantType := none
  message : Option String := none

/-- A row of `agent_approval_queue`; one of another kind has no payload here. -/
structure Approval where
  id : ℕ
  agentId : AgentId
  ownerUserId : UserId
  contactRequest : Option Payload
  state : ApprovalState := .pending

structure FriendInvite where
  creatorAgentId : Participant
  revokedAt : Option Instant := none
  expiresAt : Option Instant := none
  maxUses : ℕ := 1
  useCount : ℕ := 0

/-- Agents with the users who claimed them. -/
structure Store where
  now : Instant := 0
  users : UserId → Bool := fun _ => false
  agents : AgentId → Option (Option UserId) := fun _ => none
  contacts : Participant → Participant → Option Contact := fun _ _ => none
  requests : Keyed ContactRequest.id := {}
  approvals : Keyed Approval.id := {}
  invites : String → Option FriendInvite := fun _ => none
  redemptions : List (String × Participant) := []

/-- An `HTTPException`, or the answer to an exception that nobody catches. -/
structure Refusal where
  status : ℕ
  detail : String

abbrev Result := Except Refusal (Store × String)

namespace Store

variable (s : Store)

def setContact (owner peer : Participant) (row : Option Contact) : Store :=
  { s with contacts := Function.update s.contacts owner (Function.update (s.contacts owner) peer row) }

def insertContact (owner peer : Participant) (row : Contact) : Option Store :=
  if s.contacts owner peer = none then some (s.setContact owner peer (some row)) else none

/-- `begin_nested` around an insert: a violated constraint undoes the insert alone. -/
def inSavepoint (insert : Store → Option Store) : Store := (insert s).getD s

/-- The request between two participants under these types, in one of some states. -/
def requestBetween (source : Participant) (sourceType : ParticipantType) (target : Participant) (targetType : ParticipantType)
    (states : ContactRequestState → Bool) : Option ContactRequest :=
  s.requests.rows.find? fun r =>
    r.fromAgentId = source ∧ r.fromType = sourceType ∧ r.toAgentId = target ∧ r.toType = targetType ∧ states r.state

/-- Insert a request under the next id; there is one from a participant to another. -/
def insertRequest (request : ContactRequest) : Option Store :=
  if ∀ r ∈ s.requests, ¬ (r.fromAgentId = request.fromAgentId ∧ r.toAgentId = request.toAgentId) then
    (s.requests.insert? { request with id := s.requests.rows.length + 1 }).map fun requests => { s with requests }
  else none

def setRequest (id : ℕ) (state : ContactRequestState) : Store :=
  { s with requests := s.requests.modify (·.id = id) fun r => { r with state } }

def resendRequest (id : ℕ) (message : Option String) : Store :=
  { s with requests := s.requests.modify (·.id = id) fun r => { r with state := .pending, message } }

def insertApproval (agentId : AgentId) (ownerUserId : UserId) (contactRequest : Option Payload) : Option Store :=
  (s.approvals.insert? { id := s.approvals.rows.length + 1, agentId, ownerUserId, contactRequest }).map fun approvals =>
    { s with approvals }

def setApproval (id : ℕ) (state : ApprovalState) : Store :=
  { s with approvals := s.approvals.modify (·.id = id) fun e => { e with state } }

def insertRedemption (code : String) (redeemer : Participant) : Option Store :=
  if (code, redeemer) ∈ s.redemptions then none
  else some { s with redemptions := s.redemptions ++ [(code, redeemer)] }

end Store

def commitOr500 (s : Option Store) (answer : String) : Result :=
  match s with
  | some s => .ok (s, answer)
  | none => .error ⟨500, "Internal Server Error"⟩

/-- The end of `send_contact_request` of `app/routers/humans.py`, for a human and for an agent that nobody has claimed. -/
def requestContact (userId : UserId) (peer : Participant) (message : Option String) (s : Store) : Result :=
  let between := s.requestBetween (.human userId) .human peer (participantTypeFor peer)
  if (s.requestBetween peer (participantTypeFor peer) (.human userId) .human (· = .pending)).isSome then
    .error ⟨409, "Incoming contact request exists — accept it instead"⟩
  else if (between (· ≠ .rejected)).isSome then .ok (s, "already_requested")
  else
    match between (· = .rejected) with
    | some request => .ok (s.resendRequest request.id message, "requested")
    | none =>
      match s.insertRequest
        { id := 0, fromAgentId := .human userId, fromType := .human, toAgentId := peer, toType := participantTypeFor peer,
          message } with
      | some t => .ok (t, "requested")
      | none => .ok (s, "already_requested")

/-- `send_contact_request` of `app/routers/humans.py`: a human asks an agent or a human. -/
def sendContactRequest (userId : UserId) (peer : Participant) (message : Option String) (s : Store) : Result :=
  if peer = .human userId then .error ⟨400, "Cannot add yourself as a contact"⟩
  else if (s.contacts (.human userId) peer).any (·.ownerType = .human) then .ok (s, "already_contact")
  else
    match peer with
    | .human _ => requestContact userId peer message s
    | .agent agentId =>
      match s.agents agentId with
      | none => .error ⟨404, "Agent not found"⟩
      | some claimedBy =>
        if claimedBy = some userId then .error ⟨400, "Cannot send contact request to your own agent"⟩
        else
          match claimedBy with
          | some ownerUserId =>
            commitOr500
              (s.insertApproval agentId ownerUserId (some { fromParticipantId := .human userId, fromType := some .human, message }))
              "queued_for_approval"
          | none => requestContact userId peer message s

/-- A `contact_request` message in `_send_direct_message`: an agent asks an agent. The request is found by the two ids alone. -/
def sendContactRequestMessage (agentId peerId : AgentId) (message : Option String) (s : Store) : Result :=
  match s.agents peerId with
  | none => .error ⟨404, "unknown_agent"⟩
  | some claimedBy =>
    if agentId = peerId then .error ⟨400, "cannot_send_contact_request_to_self"⟩
    else if (s.contacts (.agent peerId) (.agent agentId)).isSome then .error ⟨409, "already_in_contacts"⟩
    else
      match s.requests.rows.find? fun r => r.fromAgentId = .agent agentId ∧ r.toAgentId = .agent peerId with
      | some request =>
        match request.state with
        | .pending => .error ⟨409, "contact_request_already_pending"⟩
        | .rejected => .ok (s.resendRequest request.id message, "queued")
        | .accepted => .error ⟨409, "contact_request_already_accepted"⟩
      | none =>
        match claimedBy with
        | some ownerUserId =>
          commitOr500 (s.insertApproval peerId ownerUserId (some { fromParticipantId := .agent agentId, message })) "queued"
        | none =>
          commitOr500 (s.insertRequest { id := 0, fromAgentId := .agent agentId, toAgentId := .agent peerId, message }) "queued"

/-- `send_contact_request` of `app/routers/dashboard.py`: an agent asks an agent or a human. -/
def sendContactRequestAsAgent (agentId : AgentId) (peer : Participant) (message : Option String) (s : Store) : Result :=
  let peerType := participantTypeFor peer
  let between := s.requestBetween (.agent agentId) .agent peer peerType
  let known : Bool := match peer with
    | .human userId => s.users userId
    | .agent peerId => (s.agents peerId).isSome
  if peer = .agent agentId then .error ⟨400, "Cannot send request to yourself"⟩
  else if ¬ known then
    .error ⟨404, if peerType = .human then "Target human not found" else "Target agent not found"⟩
  else if s.contacts (.agent agentId) peer = some { ownerType := .agent, peerType } then .error ⟨409, "Already in contacts"⟩
  else if (s.requestBetween peer peerType (.agent agentId) .agent (· = .pending)).isSome then
    .error ⟨409, "Incoming contact request exists — accept it instead"⟩
  else if (between (· ≠ .rejected)).isSome then .error ⟨409, "Contact request already exists"⟩
  else
    match between (· = .rejected) with
    | some request => .ok (s.resendRequest request.id message, "pending")
    | none =>
      commitOr500
        (s.insertRequest { id := 0, fromAgentId := .agent agentId, fromType := .agent, toAgentId := peer, toType := peerType, message })
        "pending"

/-- The contact that `accept_request` adds where there is none, of the default types. -/
def addIfMissing (owner peer : Participant) (s : Store) : Store :=
  if s.contacts owner peer = none then s.inSavepoint (·.insertContact owner peer {}) else s

/-- `accept_request`. -/
def acceptRequest (agentId : AgentId) (requestId : ℕ) (s : Store) : Result :=
  match (s.requests.get? requestId).filter (·.toAgentId = .agent agentId) with
  | none => .error ⟨404, "contact_request_not_found"⟩
  | some cr =>
    if cr.state ≠ .pending then .error ⟨400, "contact_request_already_resolved"⟩
    else
      .ok (addIfMissing cr.fromAgentId cr.toAgentId
        (addIfMissing cr.toAgentId cr.fromAgentId (s.setRequest requestId .accepted)), "accepted")

/-- `reject_request`. -/
def rejectRequest (agentId : AgentId) (requestId : ℕ) (s : Store) : Result :=
  match (s.requests.get? requestId).filter (·.toAgentId = .agent agentId) with
  | none => .error ⟨404, "contact_request_not_found"⟩
  | some cr =>
    if cr.state ≠ .pending then .error ⟨400, "contact_request_already_resolved"⟩
    else .ok (s.setRequest requestId .rejected, "rejected")

/-- `_accept_human_contact_request`: each direction in its own savepoint. -/
def acceptHumanContactRequest (req : ContactRequest) (s : Store) : Store :=
  let s := s.setRequest req.id .accepted
  let s := s.inSavepoint (·.insertContact req.toAgentId req.fromAgentId { ownerType := req.toType, peerType := req.fromType })
  s.inSavepoint (·.insertContact req.fromAgentId req.toAgentId { ownerType := req.fromType, peerType := req.toType })

/-- `_reject_human_contact_request`. -/
def rejectHumanContactRequest (req : ContactRequest) (s : Store) : Store := s.setRequest req.id .rejected

inductive Decision
  | approve | reject
deriving DecidableEq

/-- `accept_contact_request_as_human` and `reject_contact_request_as_human`. -/
def resolveContactRequestAsHuman (userId : UserId) (requestId : ℕ) (decision : Decision) (s : Store) : Result :=
  match s.requests.get? requestId with
  | none => .error ⟨404, "Contact request not found"⟩
  | some req =>
    if req.toType ≠ .human ∨ req.toAgentId ≠ .human userId then
      .error ⟨403, if decision = .approve then "Only the recipient Human can accept this request"
        else "Only the recipient Human can reject this request"⟩
    else if req.state ≠ .pending then .error ⟨409, "Request already resolved"⟩
    else
      match decision with
      | .approve => .ok (acceptHumanContactRequest req s, "accepted")
      | .reject => .ok (rejectHumanContactRequest req s, "rejected")

/-- `resolve_pending_approval` of a request to the human. -/
def resolveHumanApproval (userId : UserId) (requestId : ℕ) (decision : Decision) (s : Store) : Result :=
  match s.requests.get? requestId with
  | none => .error ⟨404, "Approval not found"⟩
  | some req =>
    if req.toType ≠ .human ∨ req.toAgentId ≠ .human userId then .error ⟨403, "Approval is not yours to resolve"⟩
    else if req.state ≠ .pending then .error ⟨409, "Approval already resolved"⟩
    else
      match decision with
      | .approve => .ok (acceptHumanContactRequest req s, "approved")
      | .reject => .ok (rejectHumanContactRequest req s, "rejected")

/-- Both contacts of an approved entry, or neither: they are inserted in one transaction. -/
def approvedContacts (entry : Approval) (payload : Payload) (s : Store) : Option Store :=
  let source := payload.fromParticipantId
  let fromType := payload.fromType.getD (participantTypeFor source)
  (s.insertContact (.agent entry.agentId) source { ownerType := .agent, peerType := fromType }).bind
    (·.insertContact source (.agent entry.agentId) { ownerType := fromType, peerType := .agent })

/-- `resolve_pending_approval` of an entry of the queue. -/
def resolvePendingApproval (userId : UserId) (approvalId : ℕ) (decision : Decision) (s : Store) : Result :=
  match s.approvals.get? approvalId with
  | none => .error ⟨404, "Approval not found"⟩
  | some entry =>
    if entry.ownerUserId ≠ userId then .error ⟨403, "Approval is not yours to resolve"⟩
    else if entry.state ≠ .pending then .error ⟨409, "Approval already resolved"⟩
    else
      match decision with
      | .approve =>
        match entry.contactRequest with
        | some payload =>
          -- A duplicate rolls everything back; the entry alone is marked in a new transaction.
          .ok ((approvedContacts entry payload (s.setApproval approvalId .approved)).getD
            (s.setApproval approvalId .approved), "approved")
        | none => .ok (s.setApproval approvalId .approved, "approved")
      | .reject => .ok (s.setApproval approvalId .rejected, "rejected")

/-- The contact that the dashboard adds unless there is one of these types. -/
def addUnlessThere (owner peer : Participant) (row : Contact) (s : Store) : Option Store :=
  if s.contacts owner peer = some row then some s else s.insertContact owner peer row

/-- `accept_contact_request` of `app/routers/dashboard.py`: the owner accepts for an agent. -/
def acceptContactRequest (userId : UserId) (requestId : ℕ) (s : Store) : Result :=
  match s.requests.get? requestId with
  | none => .error ⟨404, "Contact request not found"⟩
  | some req =>
    match req.toAgentId with
    | .human _ => .error ⟨403, "Not your request to accept"⟩
    | .agent agentId =>
      if req.toType ≠ .agent ∨ s.agents agentId ≠ some (some userId) then .error ⟨403, "Not your request to accept"⟩
      else if req.state ≠ .pending then .error ⟨409, "Request is not pending"⟩
      else
        commitOr500
          ((addUnlessThere req.fromAgentId req.toAgentId { ownerType := req.fromType, peerType := req.toType }
            (s.setRequest requestId .accepted)).bind
              (addUnlessThere req.toAgentId req.fromAgentId { ownerType := req.toType, peerType := req.fromType }))
          "accepted"

/-- `reject_contact_request` of `app/routers/dashboard.py`. -/
def rejectContactRequest (userId : UserId) (requestId : ℕ) (s : Store) : Result :=
  match s.requests.get? requestId with
  | none => .error ⟨404, "Contact request not found"⟩
  | some req =>
    match req.toAgentId with
    | .human _ => .error ⟨403, "Not your request to reject"⟩
    | .agent agentId =>
      if req.toType ≠ .agent ∨ s.agents agentId ≠ some (some userId) then .error ⟨403, "Not your request to reject"⟩
      else if req.state ≠ .pending then .error ⟨409, "Request is not pending"⟩
      else .ok (s.setRequest requestId .rejected, "rejected")

/-- `_ensure_invite_active`. -/
def ensureInviteActive (invite : FriendInvite) (now : Instant) : Except Refusal Unit :=
  if invite.revokedAt ≠ none then .error ⟨410, "Invite has been revoked"⟩
  else if invite.expiresAt.any (· < now) then .error ⟨410, "Invite has expired"⟩
  else if invite.useCount ≥ invite.maxUses then .error ⟨410, "Invite is no longer available"⟩
  else .ok ()

/-- The rows of a redeemed friend invite, which are flushed together. -/
def redeemedContacts (code : String) (invite : FriendInvite) (redeemer : Participant) (s : Store) : Option Store :=
  let creator := invite.creatorAgentId
  let redeemerType := participantTypeFor redeemer
  let creatorType := participantTypeFor creator
  (s.insertContact redeemer creator { ownerType := redeemerType, peerType := creatorType }).bind fun s =>
    (s.insertContact creator redeemer { ownerType := creatorType, peerType := redeemerType }).bind fun s =>
      s.insertRedemption code redeemer

/-- `redeem_invite_for_agent` of a friend invite. -/
def redeemInviteForAgent (code : String) (agentId : AgentId) (s : Store) : Result :=
  match s.invites code with
  | none => .error ⟨404, "Invite not found"⟩
  | some invite =>
    if (s.contacts (.agent agentId) invite.creatorAgentId).isSome then .ok (s, "already_connected")
    else if invite.creatorAgentId = .agent agentId then .error ⟨400, "You cannot use your own friend invite"⟩
    else
      match ensureInviteActive invite s.now with
      | .error refusal => .error refusal
      | .ok () =>
        match redeemedContacts code invite (.agent agentId) s with
        | some t =>
          .ok ({ t with invites := Function.update t.invites code (some { invite with useCount := invite.useCount + 1 }) },
            "redeemed")
        -- The rollback, of the contacts too, expires the invite, and to read its code again raises.
        | none => .error ⟨500, "Internal Server Error"⟩

/-- `remove_contact`: both directions. -/
def removeContact (agentId : AgentId) (peer : Participant) (s : Store) : Result :=
  if s.contacts (.agent agentId) peer = none then .error ⟨404, "contact_not_found"⟩
  else .ok ((s.setContact (.agent agentId) peer none).setContact peer (.agent agentId) none, "removed")

/-- The calls, and what happens elsewhere: agents are registered and claimed, invites are made and revoked, entries of other kinds are queued. -/
inductive Action
  | sendContactRequest (userId : UserId) (peer : Participant) (message : Option String)
  | sendContactRequestMessage (agentId peerId : AgentId) (message : Option String)
  | sendContactRequestAsAgent (agentId : AgentId) (peer : Participant) (message : Option String)
  | acceptRequest (agentId : AgentId) (requestId : ℕ)
  | rejectRequest (agentId : AgentId) (requestId : ℕ)
  | resolveContactRequestAsHuman (userId : UserId) (requestId : ℕ) (decision : Decision)
  | resolveHumanApproval (userId : UserId) (requestId : ℕ) (decision : Decision)
  | resolvePendingApproval (userId : UserId) (approvalId : ℕ) (decision : Decision)
  | acceptContactRequest (userId : UserId) (requestId : ℕ)
  | rejectContactRequest (userId : UserId) (requestId : ℕ)
  | redeemInviteForAgent (code : String) (agentId : AgentId)
  | removeContact (agentId : AgentId) (peer : Participant)
  | user (userId : UserId) (known : Bool)
  | agent (agentId : AgentId) (claimedBy : Option (Option UserId))
  | invite (code : String) (row : Option FriendInvite)
  | queue (agentId : AgentId) (ownerUserId : UserId)
  | tick (microseconds : ℕ)

def Action.call (s : Store) : Action → Result
  | .sendContactRequest userId peer message => Contacts.sendContactRequest userId peer message s
  | .sendContactRequestMessage agentId peerId message => Contacts.sendContactRequestMessage agentId peerId message s
  | .sendContactRequestAsAgent agentId peer message => Contacts.sendContactRequestAsAgent agentId peer message s
  | .acceptRequest agentId requestId => Contacts.acceptRequest agentId requestId s
  | .rejectRequest agentId requestId => Contacts.rejectRequest agentId requestId s
  | .resolveContactRequestAsHuman userId requestId decision =>
    Contacts.resolveContactRequestAsHuman userId requestId decision s
  | .resolveHumanApproval userId requestId decision => Contacts.resolveHumanApproval userId requestId decision s
  | .resolvePendingApproval userId approvalId decision => Contacts.resolvePendingApproval userId approvalId decision s
  | .acceptContactRequest userId requestId => Contacts.acceptContactRequest userId requestId s
  | .rejectContactRequest userId requestId => Contacts.rejectContactRequest userId requestId s
  | .redeemInviteForAgent code agentId => Contacts.redeemInviteForAgent code agentId s
  | .removeContact agentId peer => Contacts.removeContact agentId peer s
  | .user userId known => .ok ({ s with users := Function.update s.users userId known }, "")
  | .agent agentId claimedBy => .ok ({ s with agents := Function.update s.agents agentId claimedBy }, "")
  | .invite code row => .ok ({ s with invites := Function.update s.invites code row }, "")
  | .queue agentId ownerUserId => commitOr500 (s.insertApproval agentId ownerUserId none) ""
  | .tick microseconds => .ok ({ s with now := s.now + microseconds }, "")

/-- What a call leaves: a refused one leaves everything as it was. -/
def Action.apply (s : Store) (a : Action) : Store :=
  match a.call s with
  | .ok (t, _) => t
  | .error _ => s

def contacts : System Store Action := .total Action.apply

end BotCord.Contacts
