import BotCord.Personal.Ownership

/-!
# The gates of a room

The limit of a room and the product it requires, who may enter, and the calls that change both columns: `update_room` of `hub/routers/room.py` and `update_room_settings_as_human` of `app/routers/humans.py`. Together with the five ways into a room and the transfers they make up the system in which an entry is judged.
-/

namespace BotCord.Personal

open Rooms (Participant RoomRole)
open Spaces (UserId AgentId)

structure RoomSettings where
  visibility : Option RoomVisibility := none
  joinPolicy : Option RoomJoinPolicy := none
  maxMembers : Option (Option ℕ) := none
  requiredSubscriptionProductId : Option (Option ProductId) := none
  defaultInvite : Option Bool := none
deriving DecidableEq

namespace RoomSettings

variable (settings : RoomSettings)

/-- A column of a row that was loaded, set to a value that may be absent. -/
def column {α : Type} [DecidableEq α] (value : Option α) (loaded row : α) : α :=
  match value with
  | none => row
  | some new => if loaded = new then row else new

def write (loaded row : Room) : Room where
  ownerId := row.ownerId
  ownerType := row.ownerType
  visibility := column settings.visibility loaded.visibility row.visibility
  joinPolicy := column settings.joinPolicy loaded.joinPolicy row.joinPolicy
  maxMembers := column settings.maxMembers loaded.maxMembers row.maxMembers
  requiredSubscriptionProductId :=
    column settings.requiredSubscriptionProductId loaded.requiredSubscriptionProductId row.requiredSubscriptionProductId
  defaultInvite := column settings.defaultInvite loaded.defaultInvite row.defaultInvite

/-- Nothing differs from what was loaded, so the flush leaves the row of the room alone. -/
def Unchanged (loaded : Room) : Prop := settings.write loaded loaded = loaded
deriving Decidable

end RoomSettings

def putSettings (roomId : RoomId) (settings : RoomSettings) (loaded : Room) : Call :=
  .commit (fun _ => true) fun s => some (s.putRoom roomId (settings.write loaded))

/-- The checks of `update_room`: the owner has the product as an active one, and all but the owner are subscribed to a product that is new. -/
def putCheckedSettings (roomId : RoomId) (settings : RoomSettings) (room : Room) (members : List RoomMember) (ownsProduct : Bool) : Call :=
  let productId := (settings.write room room).requiredSubscriptionProductId
  .require (productId = none ∨ ownsProduct = true) <|
    match productId with
    | none => putSettings roomId settings room
    | some productId =>
      if room.requiredSubscriptionProductId = some productId then putSettings roomId settings room
      else .select fun s => .require (∀ m ∈ members, m.agentId ≠ room.ownerId →
        ∃ subscription ∈ s.subscriptions, subscription.productId = productId ∧ .agent subscription.subscriberAgentId = m.agentId) <|
          putSettings roomId settings room

/-- `update_room`; whether the owner has the product is given with the call. -/
def updateRoom (roomId : RoomId) (currentAgent : AgentId) (settings : RoomSettings) (ownsProduct : Bool) : Call :=
  loadRoomWithMembers roomId fun room members => requireMembership members currentAgent fun caller =>
    .require (caller.role = .owner ∨ caller.role = .admin) <|
      -- The columns are flushed with the next statement.
      if settings.Unchanged room then .finish
      else waitForRoom roomId <| putCheckedSettings roomId settings room members ownsProduct

/-- `update_room_settings_as_human`: all of these fields are the owner's. -/
def updateRoomSettingsAsHuman (roomId : RoomId) (userId : UserId) (settings : RoomSettings) (ownsProduct : Bool) : Call :=
  loadRoomMemberAsCaller roomId userId fun room caller => effectiveHumanRoomRole roomId room userId caller.role fun role =>
    .require (role = some .owner ∨ role = some .admin) <| .require (settings ≠ {} → role = some .owner) <|
      .require (settings.requiredSubscriptionProductId.join = none ∨ ownsProduct = true) <|
        putSettings roomId settings room

namespace Store

variable (s : Store)

/-- A human has authority over a room: an agent of theirs owns it or administrates it. -/
def HasAuthority (roomId : RoomId) (room : Room) (userId : UserId) : Prop :=
  (room.ownerType = .agent ∧ ownedBy s.agents userId room.ownerId = true) ∨ s.AdminsRoom s.agents roomId userId
deriving Decidable

/-- The product of a room lets a participant in: its owner, a subscribed agent, or a human with authority. -/
def Admits (roomId : RoomId) (room : Room) (productId : ProductId) (participant : Participant) : Prop :=
  participant = room.ownerId ∨
    match participant with
    | .agent agentId => s.Subscribed productId agentId
    | .human userId => s.HasAuthority roomId room userId

def Gated (roomId : RoomId) (participant : Participant) : Prop :=
  ∀ room ∈ s.rooms roomId, (∀ maxMembers ∈ room.maxMembers, s.seats roomId ≤ maxMembers) ∧
    ∀ productId ∈ room.requiredSubscriptionProductId, s.Admits roomId room productId participant

end Store

/-- What let a participant through the gate of a product still does. -/
def Access.Stands (roomId : RoomId) (participant : Participant) (room : Room) (s : Store) : Access → Prop
  | .noProduct | .unchecked => False
  | .owner => participant = room.ownerId
  | .subscribed productId agentId => s.Subscribed productId agentId
  | .authority userId => s.HasAuthority roomId room userId

instance (roomId : RoomId) (participant : Participant) (room : Room) (s : Store) (access : Access) : Decidable (access.Stands roomId participant room s) := by
  unfold Access.Stands
  split <;> infer_instance

namespace EntryRead

variable (read : EntryRead)

/-- Of a call that has locked the room: where the room requires a product, its participant is let in still. -/
def Admitted (s : Store) : Prop :=
  s.seat read.roomId read.participant = none → ∀ room ∈ s.rooms read.roomId,
    room.requiredSubscriptionProductId ≠ none → read.access.Stands read.roomId read.participant room s
deriving Decidable

/-- Of a call that holds no lock: the gates are no narrower than it read them, and no more members are there. -/
def Stands (s : Store) : Prop :=
  s.seat read.roomId read.participant = none → ∀ room ∈ s.rooms read.roomId,
    (∀ maxMembers ∈ room.maxMembers, s.seats read.roomId ≤ read.seats ∧ ∃ least ∈ read.room.maxMembers, least ≤ maxMembers) ∧
      (room.requiredSubscriptionProductId ≠ none →
        room.requiredSubscriptionProductId = read.room.requiredSubscriptionProductId ∧ read.access.Stands read.roomId read.participant room s)
deriving Decidable

/-- Of an approval, which checks nothing: an agent that is not in the room would pass the checks that the other ways into it make. -/
def WouldPass (s : Store) : Prop :=
  s.seat read.roomId read.participant = none → ∀ room ∈ s.rooms read.roomId,
    (∀ maxMembers ∈ room.maxMembers, s.seats read.roomId < maxMembers) ∧
      ∀ productId ∈ room.requiredSubscriptionProductId, read.participant = room.ownerId ∨
        ∃ subscription ∈ s.subscriptions, subscription.productId = productId ∧
          .agent subscription.subscriberAgentId = read.participant
deriving Decidable

end EntryRead

/-- What a redeeming call has read, as that of an entry. -/
def Read.entry (read : Read) (agentId : AgentId) : Option EntryRead :=
  match read.invite.kind, read.room with
  | .room roomId, some (room, seats) =>
    some { roomId, participant := .agent agentId, room, seats
           access := match room.requiredSubscriptionProductId with
             | none => .noProduct
             | some productId => if room.ownerId = .agent agentId then .owner else .subscribed productId agentId }
  | _, _ => none

inductive EntryRequest
  | addMember (roomId : RoomId) (currentAgent : AgentId) (target : Option Participant) (canInvite : Option Bool)
      (admitted : Bool) (approvalId : ℕ)
  | joinRoomAsHuman (roomId : RoomId) (userId : UserId)
  | inviteRoomMemberAsHuman (roomId : RoomId) (userId : UserId) (participant : Participant) (role : RoomRole)
      (admitted : Bool) (approvalId : ℕ)
  | resolveRoomInvite (approvalId : ℕ) (userId : UserId) (approve : Bool)
  | redeemInviteForAgent (code : String) (agentId : AgentId)
  | updateRoom (roomId : RoomId) (currentAgent : AgentId) (settings : RoomSettings) (ownsProduct : Bool)
  | updateRoomSettingsAsHuman (roomId : RoomId) (userId : UserId) (settings : RoomSettings) (ownsProduct : Bool)
  | transferOwnership (roomId : RoomId) (currentAgent : AgentId) (newOwner : Participant) (ownsProduct : Bool)
  | transferRoomOwnershipAsHuman (roomId : RoomId) (userId : UserId) (newOwner : Participant)
  | leaveRoom (roomId : RoomId) (agentId : AgentId)

def EntryRequest.program : EntryRequest → Store → Call
  | .addMember roomId currentAgent target canInvite admitted approvalId, _ =>
    Personal.addMember (fun read s => read.Stands s) roomId currentAgent target canInvite admitted approvalId
  | .joinRoomAsHuman roomId userId, _ => Personal.joinRoomAsHuman (fun read s => read.Admitted s) roomId userId
  | .inviteRoomMemberAsHuman roomId userId participant role admitted approvalId, _ =>
    Personal.inviteRoomMemberAsHuman (fun read s => read.Admitted s) roomId userId participant role admitted approvalId
  | .resolveRoomInvite approvalId userId approve, _ =>
    Personal.resolveRoomInvite (fun read s => read.WouldPass s) approvalId userId approve
  | .redeemInviteForAgent code agentId, _ =>
    Personal.redeemInviteForAgent (fun _ agentId read s => ∀ entry ∈ read.entry agentId, entry.Stands s) code agentId
  | .updateRoom roomId currentAgent settings ownsProduct, _ => Personal.updateRoom roomId currentAgent settings ownsProduct
  | .updateRoomSettingsAsHuman roomId userId settings ownsProduct, _ =>
    Personal.updateRoomSettingsAsHuman roomId userId settings ownsProduct
  | .transferOwnership roomId currentAgent newOwner ownsProduct, _ =>
    Personal.transferOwnership (fun _ _ _ _ => true) roomId currentAgent newOwner ownsProduct
  | .transferRoomOwnershipAsHuman roomId userId newOwner, _ => Personal.transferRoomOwnershipAsHuman roomId userId newOwner
  | .leaveRoom roomId agentId, _ => Personal.leaveRoom (fun _ _ => true) roomId agentId

/-- What changes elsewhere: the clock, users, agents and who claimed them, subscriptions, contacts, invites, and what members are removed or promoted. -/
inductive EntryEvent
  | tick (microseconds : ℕ)
  | user (userId : UserId) (known : Bool)
  | agent (agentId : AgentId) (claimedBy : Option (Option UserId))
  | subscriptions (rows : List AgentSubscription)
  | contact (owner peer : Participant) (row : Option Contacts.Contact)
  | invite (code : String) (row : Option Invite)
  | expel (member : RoomMember)
  | promote (member : RoomMember) (role : RoomRole)

def EntryEvent.apply : EntryEvent → Store → Store
  | .tick microseconds, s => { s with now := s.now + microseconds }
  | .user userId known, s => { s with users := Function.update s.users userId known }
  | .agent agentId claimedBy, s => { s with agents := Function.update s.agents agentId claimedBy }
  | .subscriptions rows, s => { s with subscriptions := rows }
  | .contact owner peer row, s => s.setContact owner peer row
  | .invite code row, s => { s with invites := Function.update s.invites code row }
  | .expel member, s => s.deleteMember member
  | .promote member role, s => (s.updateMember member role).getD s

def entries : System (Calls Store RoomId) (CallAction EntryRequest EntryEvent) := calls EntryRequest.program EntryEvent.apply

end BotCord.Personal
