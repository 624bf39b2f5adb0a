import BotCord.Rooms.Service
import BotCord.Spaces.Consistent
import BotCord.Subscriptions.Store

/-!
# The admission policies

`_legacy_direct_admission` and `_legacy_room_invite_admission` of `hub/policy.py`, over the tables they read: agents with their policies, contacts, blocks and room members. They decide who may message an agent and who may pull it into a room. A row repeats in a column whether an id is an agent's or a human's; the checks here compare that column, and nothing keeps it right in a contact: a request of a human that an agent accepts leaves a contact of an agent.
-/

namespace BotCord.Admission

open Access (Instant PrincipalId)
open Rooms (RoomRole)
open Spaces (UserId SpaceId AgentId)
open Subscriptions (ParticipantType)

inductive MessagePolicy
  | open_ | contactsOnly
deriving DecidableEq

inductive ContactPolicy
  | open_ | contactsOnly | whitelist | closed
deriving DecidableEq

inductive RoomInvitePolicy
  | open_ | contactsOnly | closed
deriving DecidableEq

/-- The columns of an agent that admission and the offer it makes depend on. -/
structure AgentPolicy where
  messagePolicy : MessagePolicy := .contactsOnly
  contactPolicy : Option ContactPolicy := some .contactsOnly
  roomInvitePolicy : Option RoomInvitePolicy := some .contactsOnly
  allowAgentSender : Bool := true
  allowHumanSender : Bool := true
  nonOwnerCapability : String := "consult"
  createdAt : Instant := 0

structure Contact where
  id : ℕ
  ownerId : PrincipalId
  ownerType : ParticipantType := .agent
  contactAgentId : PrincipalId
  peerType : ParticipantType := .agent
  createdAt : Instant := 0

inductive ContactRequestState
  | pending | accepted | rejected
deriving DecidableEq

structure ContactRequest where
  id : ℕ
  fromAgentId : PrincipalId
  fromType : ParticipantType := .agent
  toAgentId : PrincipalId
  toType : ParticipantType := .agent
  state : ContactRequestState := .pending

structure Block where
  id : ℕ
  ownerId : PrincipalId
  ownerType : ParticipantType := .agent
  blockedAgentId : PrincipalId
  blockedType : ParticipantType := .agent

abbrev RoomId := String

structure Room where
  roomId : RoomId
  spaceId : Option SpaceId := none

structure RoomMember where
  id : ℕ
  roomId : RoomId
  agentId : PrincipalId
  participantType : ParticipantType := .agent
  role : RoomRole := .member
  joinedAt : Instant := 0

structure AgentManagementGrant where
  id : ℕ
  userId : UserId
  agentId : AgentId
  scope : String
  createdByUserId : Option UserId := none
  expiresAt : Option Instant := none
  revokedAt : Option Instant := none

def typePrefix : ParticipantType → String
  | .agent => "ag_"
  | .human => "hu_"

/-- The tables with the constraints of their schema: ids are generated with a prefix, `uq_contact`, `uq_block` and the pair of a member are unique, an organization has its space. Blocks are written by `add_block` alone, of agents and as agents. -/
structure Tables where
  spaces : Spaces.Tables := {}
  policies : AgentId → AgentPolicy := fun _ => {}
  contacts : Keyed Contact.id := {}
  contactRequests : Keyed ContactRequest.id := {}
  blocks : Keyed Block.id := {}
  rooms : Keyed Room.roomId := {}
  roomMembers : Keyed RoomMember.id := {}
  managementGrants : Keyed AgentManagementGrant.id := {}
  legacyFullBefore : Option Instant := none
  agents_prefixed : ∀ a ∈ spaces.agents, a.agentId.startsWith (typePrefix .agent)
  users_prefixed : ∀ u ∈ spaces.users, u.humanId.startsWith (typePrefix .human)
  organization_space : ∀ o ∈ spaces.organizations, ∃ s ∈ spaces.spaces, s.id = o.spaceId
  uq_contact : (contacts.rows.map fun c => (c.ownerId, c.contactAgentId)).Nodup
  uq_block : (blocks.rows.map fun b => (b.ownerId, b.blockedAgentId)).Nodup
  uq_room_member : (roomMembers.rows.map fun m => (m.roomId, m.agentId)).Nodup
  blocks_typed : ∀ b ∈ blocks, b.blockedAgentId.startsWith (typePrefix b.blockedType)

structure Principal where
  id : PrincipalId
  type : ParticipantType

/-- `_effective_contact_policy` -/
def effectiveContactPolicy (agent : AgentPolicy) : ContactPolicy :=
  match agent.contactPolicy with
  | none => if agent.messagePolicy = .open_ then .open_ else .contactsOnly
  | some contact => if contact = .contactsOnly ∧ agent.messagePolicy = .open_ then .open_ else contact

/-- `_effective_room_invite_policy` -/
def effectiveRoomInvitePolicy (agent : AgentPolicy) : RoomInvitePolicy :=
  match agent.roomInvitePolicy with
  | none => if agent.messagePolicy = .open_ then .open_ else .contactsOnly
  | some invite => if invite = .contactsOnly ∧ agent.messagePolicy = .open_ then .open_ else invite

inductive LegacyReason
  | contactRequest | openPolicy | contact | sameOwner | sameRoom
deriving DecidableEq

inductive LegacyDenial
  | blocked | agentSendersDisabled | humanSendersDisabled | notInContacts | notInWhitelist | agentClosedToNewContacts
  | roomInviteRequiresContact | agentClosedToRoomInvites
deriving DecidableEq

abbrev Verdict := Except LegacyDenial LegacyReason

namespace Tables

variable (t : Tables)

/-- `_is_blocked` -/
def isBlocked (ownerId : PrincipalId) (target : Principal) : Prop :=
  ∃ b ∈ t.blocks, b.ownerId = ownerId ∧ b.blockedAgentId = target.id ∧ b.blockedType = target.type
deriving Decidable

/-- `_is_contact` -/
def isContact (ownerId : PrincipalId) (peer : Principal) : Prop :=
  ∃ c ∈ t.contacts, c.ownerId = ownerId ∧ c.contactAgentId = peer.id ∧ c.peerType = peer.type
deriving Decidable

/-- `_shares_room` -/
def sharesRoom (receiverAgentId : PrincipalId) (sender : Principal) : Prop :=
  ∃ m ∈ t.roomMembers, (m.agentId = receiverAgentId ∧ m.participantType = .agent) ∧
    ∃ n ∈ t.roomMembers, n.roomId = m.roomId ∧ n.agentId = sender.id ∧ n.participantType = sender.type
deriving Decidable

/-- `_owning_user_id` -/
def owningUserId (principal : Principal) : Option UserId :=
  match principal.type with
  | .agent => (t.spaces.agents.get? principal.id).bind (·.userId)
  | .human => (t.spaces.users.rows.find? (·.humanId = principal.id)).map (·.id)

/-- `_same_owner` -/
def sameOwner (receiver : Spaces.Agent) (sender : Principal) : Prop :=
  ∃ userId, receiver.userId = some userId ∧ t.owningUserId sender = some userId

instance (receiver : Spaces.Agent) (sender : Principal) : Decidable (t.sameOwner receiver sender) :=
  decidable_of_iff (receiver.userId.any fun userId => t.owningUserId sender = some userId) (by
    simp [sameOwner, Option.any_eq_true])

def senderClassDenied (agent : AgentPolicy) (sender : Principal) : Option LegacyDenial :=
  if sender.type = .agent ∧ ¬ agent.allowAgentSender then some .agentSendersDisabled
  else if sender.type = .human ∧ ¬ agent.allowHumanSender then some .humanSendersDisabled
  else none

/-- `_legacy_direct_admission` -/
def legacyDirectAdmission (sender : Principal) (receiver : Spaces.Agent) (contactRequest allowSameRoomBypass : Bool) :
    Verdict :=
  if t.isBlocked receiver.agentId sender then .error .blocked
  else if contactRequest then .ok .contactRequest
  else
    match senderClassDenied (t.policies receiver.agentId) sender with
    | some denial => .error denial
    | none =>
      match effectiveContactPolicy (t.policies receiver.agentId) with
      | .open_ => .ok .openPolicy
      | .contactsOnly =>
        if t.isContact receiver.agentId sender then .ok .contact
        else if t.sameOwner receiver sender then .ok .sameOwner
        else if allowSameRoomBypass ∧ t.sharesRoom receiver.agentId sender then .ok .sameRoom
        else .error .notInContacts
      | .whitelist =>
        if t.isContact receiver.agentId sender then .ok .contact
        else if t.sameOwner receiver sender then .ok .sameOwner
        else .error .notInWhitelist
      | .closed => .error .agentClosedToNewContacts

/-- `_legacy_room_invite_admission` -/
def legacyRoomInviteAdmission (inviter : Principal) (invitee : Spaces.Agent) : Verdict :=
  if t.isBlocked invitee.agentId inviter then .error .blocked
  else
    match senderClassDenied (t.policies invitee.agentId) inviter with
    | some denial => .error denial
    | none =>
      match effectiveRoomInvitePolicy (t.policies invitee.agentId) with
      | .open_ => .ok .openPolicy
      | .contactsOnly =>
        if t.isContact invitee.agentId inviter then .ok .contact else .error .roomInviteRequiresContact
      | .closed => .error .agentClosedToRoomInvites

/-- The identity is an agent or a user of the hub, and is called what it is. -/
def Knows (sender : Principal) : Prop :=
  match sender.type with
  | .agent => ∃ a ∈ t.spaces.agents, a.agentId = sender.id
  | .human => ∃ u ∈ t.spaces.users, u.humanId = sender.id

instance (sender : Principal) : Decidable (t.Knows sender) := by
  unfold Knows
  cases sender.type <;> infer_instance

end Tables

theorem typePrefix_eq {id : PrincipalId} {x y : ParticipantType} (hx : id.startsWith (typePrefix x))
    (hy : id.startsWith (typePrefix y)) : x = y := by
  rw [String.startsWith_string_iff] at hx hy
  obtain ⟨rest, hrest⟩ := hx
  obtain ⟨rest', hrest'⟩ := hy
  rw [← hrest'] at hrest
  cases x <;> cases y <;> first | rfl | simp [typePrefix] at hrest

variable {t : Tables} {sender : Principal}

theorem Tables.Knows.prefixed (h : t.Knows sender) : sender.id.startsWith (typePrefix sender.type) := by
  unfold Knows at h
  cases htype : sender.type <;> rw [htype] at h
  · obtain ⟨a, ha, hid⟩ := h
    exact hid ▸ t.agents_prefixed a ha
  · obtain ⟨u, hu, hid⟩ := h
    exact hid ▸ t.users_prefixed u hu

theorem Tables.Knows.startsWith_iff (h : t.Knows sender) (type : ParticipantType) :
    sender.id.startsWith (typePrefix type) ↔ sender.type = type := by
  constructor
  · intro hhuman
    exact typePrefix_eq h.prefixed hhuman
  · rintro rfl
    exact h.prefixed

theorem isBlocked_iff (h : t.Knows sender) {ownerId : PrincipalId} :
    t.isBlocked ownerId sender ↔ ∃ b ∈ t.blocks, b.ownerId = ownerId ∧ b.blockedAgentId = sender.id := by
  constructor
  · rintro ⟨b, hb, howner, hid, -⟩
    exact ⟨b, hb, howner, hid⟩
  · rintro ⟨b, hb, howner, hid⟩
    exact ⟨b, hb, howner, hid, typePrefix_eq (hid ▸ t.blocks_typed b hb) h.prefixed⟩

end BotCord.Admission
