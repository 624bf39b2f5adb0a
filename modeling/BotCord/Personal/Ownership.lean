import BotCord.Personal.Entries

/-!
# Who owns a room

The calls of `hub/routers/room.py` and `app/routers/humans.py` that make a room, hand it over, change the roles of its members and remove them, as the database statements they run. The owner is written in three places, the two columns of the room and the role of a member.

An attribute is written at the flush if it differs from what was loaded, so what a call has loaded also decides what it leaves alone. The calls of agents load a room without a lock, and only a flush that writes the row of the room waits for it; the calls of humans lock the row when they load it.
-/

namespace BotCord.Personal

open Rooms (Participant RoomRole)
open Subscriptions (ParticipantType)
open Spaces (UserId AgentId)
open Contacts (participantTypeFor)

namespace Store

variable (s : Store)

def setRole (member : RoomMember) (role : RoomRole) : Option Store :=
  if member.role = role then some s else s.updateMember member role

/-- The owner columns of a room as it was loaded, set to another owner. -/
def setOwner (roomId : RoomId) (loaded : Room) (owner : Participant) : Store :=
  s.putRoom roomId fun row => { row with
    ownerId := if loaded.ownerId = owner then row.ownerId else owner
    ownerType := if loaded.ownerType = participantTypeFor owner then row.ownerType else participantTypeFor owner }

/-- The flush of a transfer: the room, the row of the outgoing owner and that of the new one, which may be the same row. -/
def transfer (roomId : RoomId) (loaded : Room) (outgoing target : RoomMember) : Option Store :=
  let s := s.setOwner roomId loaded target.agentId
  if outgoing.key = target.key then s.setRole target .owner
  else (s.setRole outgoing .member).bind (·.setRole target .owner)

def IsOwnerRow (member : RoomMember) : Prop := ∃ m ∈ s.seat member.roomId member.agentId, m.id = member.id ∧ m.role = .owner
deriving Decidable

def SeatThere (member : RoomMember) : Prop := ∃ m ∈ s.seat member.roomId member.agentId, m.id = member.id
deriving Decidable

end Store

/-- `_find_room_member`: of the type that the id says. -/
def findRoomMember (members : List RoomMember) (participant : Participant) : Option RoomMember :=
  members.find? fun m => m.agentId = participant ∧ m.participantType = participantTypeFor participant

def ofOwnType (found : Option RoomMember) (next : RoomMember → Call) : Call :=
  match found with
  | none => .reject
  | some member => .require (member.participantType = participantTypeFor member.agentId) <| next member

/-- `_load_room_member_as_caller` with `lock=True`. -/
def loadRoomMemberAsCaller (roomId : RoomId) (userId : UserId) (next : Room → RoomMember → Call) : Call :=
  lockRoom roomId fun room => loadMember roomId (.human userId) fun found =>
    match found.filter (·.participantType = .human) with
    | none => .reject
    | some caller => next room caller

/-- A transfer of an agent finds its rows gone, the new owner in place already, or its agent the owner still, over a row of the room that did not look like the new owner's. -/
def Transferable (roomId : RoomId) (currentAgent : AgentId) (loaded : Room) (outgoing target : RoomMember) (s : Store) : Prop :=
  ∀ row ∈ s.rooms roomId, s.SeatThere outgoing → s.SeatThere target →
    row.ownerId = target.agentId ∨ (row.ownerId = .agent currentAgent ∧ loaded.ownerId ≠ target.agentId ∧
      (loaded.ownerType ≠ participantTypeFor target.agentId ∨ row.ownerType = participantTypeFor target.agentId))
deriving Decidable

/-- A call that takes the role or the row of a member finds that it is not the owner's. -/
def Removable (member : RoomMember) (s : Store) : Prop := ¬ s.IsOwnerRow member
deriving Decidable

def insertRoom (roomId : RoomId) (room : Room) (members : List Participant) (s : Store) : Option Store :=
  if s.rooms roomId = none then
    let s := { s with rooms := Function.update s.rooms roomId (some room) }
    let rows := { id := 0, roomId, agentId := room.ownerId, participantType := room.ownerType, role := .owner } ::
      members.map fun p => { id := 0, roomId, agentId := p, participantType := participantTypeFor p }
    rows.foldlM (fun s row => s.insertMember row) s
  else none

def commitRoom (roomId : RoomId) (room : Room) (members : List Participant) : Call :=
  .lock (fun _ => some roomId) fun _ => .commit (fun _ => true) (insertRoom roomId room members)

def Store.Known (s : Store) : Participant → Bool
  | .agent agentId => (s.agents agentId).isSome
  | .human userId => s.users userId

/-- `create_room`; the policies, contacts and products of those it seats are given with the call. -/
def createRoom (roomId : RoomId) (currentAgent : AgentId) (settings : Room) (memberIds : List Participant) (admitted : Bool) : Call :=
  let members := memberIds.dedup.filter (· ≠ .agent currentAgent)
  .select fun s => .require (∀ p ∈ members, s.Known p = true) <| .require (admitted = true) <|
    .require (∀ maxMembers ∈ settings.maxMembers, members.length + 1 ≤ maxMembers) <|
      commitRoom roomId { settings with ownerId := .agent currentAgent, ownerType := .agent } members

/-- `create_human_room`. -/
def createHumanRoom (roomId : RoomId) (userId : UserId) (settings : Room) (memberIds : List Participant) : Call :=
  let members := memberIds.dedup.filter (· ≠ .human userId)
  .require (∀ maxMembers ∈ settings.maxMembers, members.length + 1 ≤ maxMembers) <| .select fun s =>
    .require (∀ p ∈ members, s.Known p = true) <|
      commitRoom roomId { settings with ownerId := .human userId, ownerType := .human } members

/-- `transfer_ownership` of an agent; whether a new agent owner owns the product of the room is given with the call, and `asRead` is what is said of its reads when it commits. -/
def transferOwnership (asRead : Room → RoomMember → RoomMember → Store → Bool) (roomId : RoomId) (currentAgent : AgentId)
    (newOwner : Participant) (ownsProduct : Bool) : Call :=
  loadRoomWithMembers roomId fun room members => requireMembership members currentAgent fun caller =>
    .require (caller.role = .owner) <| .require (newOwner ≠ .agent currentAgent) <|
      match findRoomMember members newOwner with
      | none => .reject
      | some target =>
        .require (room.requiredSubscriptionProductId = none ∨ participantTypeFor newOwner = .human ∨ ownsProduct = true) <|
          let commit : Call := .commit (asRead room caller target) fun s => s.transfer roomId room caller target
          -- The flush writes the room unless both columns look right already.
          if room.ownerId = newOwner ∧ room.ownerType = participantTypeFor newOwner then commit else waitForRoom roomId commit

/-- `transfer_room_ownership_as_human`: by the owner or by the human of the agent that owns the room. -/
def transferRoomOwnershipAsHuman (roomId : RoomId) (userId : UserId) (newOwner : Participant) : Call :=
  loadRoomMemberAsCaller roomId userId fun room caller => effectiveHumanRoomRole roomId room userId caller.role fun role =>
    .require (role = some .owner) <| .require (newOwner ≠ .human userId) <| loadMember roomId newOwner fun found =>
      ofOwnType found fun target =>
        let commit (outgoing : RoomMember) : Call := .commit (fun _ => true) fun s => s.transfer roomId room outgoing target
        let subscribed : Call :=
          if room.ownerId ≠ caller.agentId then loadMember roomId room.ownerId fun current => commit (current.getD caller)
          else commit caller
        match room.requiredSubscriptionProductId, newOwner with
        | some productId, .agent agentId => .select fun s => .require (s.Subscribed productId agentId) subscribed
        | _, _ => subscribed

def bodyRole (admin : Bool) : RoomRole := if admin then .admin else .member

/-- `promote_demote` of an agent. -/
def promoteDemote (roomId : RoomId) (currentAgent : AgentId) (participant : Participant) (admin : Bool) : Call :=
  loadRoomWithMembers roomId fun _ members => requireMembership members currentAgent fun caller =>
    .require (caller.role = .owner) <|
      match findRoomMember members participant with
      | none => .reject
      | some target => .require (target.role ≠ .owner) <|
        .commit (fun s => target.role = bodyRole admin ∨ Removable target s) fun s => s.setRole target (bodyRole admin)

/-- `promote_member_as_human`. -/
def promoteMemberAsHuman (roomId : RoomId) (userId : UserId) (participant : Participant) (admin : Bool) : Call :=
  loadRoomMemberAsCaller roomId userId fun room caller => effectiveHumanRoomRole roomId room userId caller.role fun role =>
    .require (role = some .owner) <| loadMember roomId participant fun found => ofOwnType found fun target =>
      .require (target.role ≠ .owner) <| .commit (fun _ => true) fun s => s.setRole target (bodyRole admin)

/-- `remove_member` of an agent. -/
def removeMember (roomId : RoomId) (currentAgent : AgentId) (participant : Participant) : Call :=
  loadRoomWithMembers roomId fun _ members => requireMembership members currentAgent fun caller =>
    .require (caller.role = .owner ∨ caller.role = .admin) <|
      match findRoomMember members participant with
      | none => .reject
      | some target => .require (target.role ≠ .owner) <| .require (target.role = .admin → caller.role = .owner) <|
        .commit (fun s => Removable target s) fun s => some (s.deleteMember target)

/-- `remove_member_as_human`. -/
def removeMemberAsHuman (roomId : RoomId) (userId : UserId) (participant : Participant) : Call :=
  loadRoomMemberAsCaller roomId userId fun room caller => effectiveHumanRoomRole roomId room userId caller.role fun role =>
    .require (role = some .owner ∨ role = some .admin) <| loadMember roomId participant fun found => ofOwnType found fun target =>
      .require (target.role ≠ .owner) <| .require (target.role = .admin → role = some .owner) <|
        .commit (fun _ => true) fun s => some (s.deleteMember target)

inductive OwnerRequest
  | createRoom (roomId : RoomId) (currentAgent : AgentId) (settings : Room) (memberIds : List Participant) (admitted : Bool)
  | createHumanRoom (roomId : RoomId) (userId : UserId) (settings : Room) (memberIds : List Participant)
  | transferOwnership (roomId : RoomId) (currentAgent : AgentId) (newOwner : Participant) (ownsProduct : Bool)
  | transferRoomOwnershipAsHuman (roomId : RoomId) (userId : UserId) (newOwner : Participant)
  | promoteDemote (roomId : RoomId) (currentAgent : AgentId) (participant : Participant) (admin : Bool)
  | promoteMemberAsHuman (roomId : RoomId) (userId : UserId) (participant : Participant) (admin : Bool)
  | removeMember (roomId : RoomId) (currentAgent : AgentId) (participant : Participant)
  | removeMemberAsHuman (roomId : RoomId) (userId : UserId) (participant : Participant)
  | leaveRoom (roomId : RoomId) (agentId : AgentId)
  | addMember (roomId : RoomId) (currentAgent : AgentId) (target : Option Participant) (canInvite : Option Bool)
      (admitted : Bool) (approvalId : ℕ)
  | joinRoomAsHuman (roomId : RoomId) (userId : UserId)
  | inviteRoomMemberAsHuman (roomId : RoomId) (userId : UserId) (participant : Participant) (role : RoomRole)
      (admitted : Bool) (approvalId : ℕ)
  | resolveRoomInvite (approvalId : ℕ) (userId : UserId) (approve : Bool)
  | redeemInviteForAgent (code : String) (agentId : AgentId)

def OwnerRequest.program : OwnerRequest → Store → Call
  | .createRoom roomId currentAgent settings memberIds admitted, _ =>
    Personal.createRoom roomId currentAgent settings memberIds admitted
  | .createHumanRoom roomId userId settings memberIds, _ => Personal.createHumanRoom roomId userId settings memberIds
  | .transferOwnership roomId currentAgent newOwner ownsProduct, _ =>
    Personal.transferOwnership (fun room outgoing target s => Transferable roomId currentAgent room outgoing target s) roomId
      currentAgent newOwner ownsProduct
  | .transferRoomOwnershipAsHuman roomId userId newOwner, _ => Personal.transferRoomOwnershipAsHuman roomId userId newOwner
  | .promoteDemote roomId currentAgent participant admin, _ => Personal.promoteDemote roomId currentAgent participant admin
  | .promoteMemberAsHuman roomId userId participant admin, _ => Personal.promoteMemberAsHuman roomId userId participant admin
  | .removeMember roomId currentAgent participant, _ => Personal.removeMember roomId currentAgent participant
  | .removeMemberAsHuman roomId userId participant, _ => Personal.removeMemberAsHuman roomId userId participant
  | .leaveRoom roomId agentId, _ => Personal.leaveRoom (fun member s => Removable member s) roomId agentId
  | .addMember roomId currentAgent target canInvite admitted approvalId, _ =>
    Personal.addMember (fun _ _ => true) roomId currentAgent target canInvite admitted approvalId
  | .joinRoomAsHuman roomId userId, _ => Personal.joinRoomAsHuman (fun _ _ => true) roomId userId
  | .inviteRoomMemberAsHuman roomId userId participant role admitted approvalId, _ =>
    Personal.inviteRoomMemberAsHuman (fun _ _ => true) roomId userId participant role admitted approvalId
  | .resolveRoomInvite approvalId userId approve, _ => Personal.resolveRoomInvite (fun _ _ => true) approvalId userId approve
  | .redeemInviteForAgent code agentId, _ => Personal.redeemInviteForAgent (fun _ _ _ _ => true) code agentId

/-- What changes elsewhere: the clock, users, agents and who claimed them, subscriptions, contacts, invites, and the settings of a room besides its owner. -/
inductive OwnerEvent
  | tick (microseconds : ℕ)
  | user (userId : UserId) (known : Bool)
  | agent (agentId : AgentId) (claimedBy : Option (Option UserId))
  | subscriptions (rows : List AgentSubscription)
  | contact (owner peer : Participant) (row : Option Contacts.Contact)
  | invite (code : String) (row : Option Invite)
  | settings (roomId : RoomId) (row : Room)

def OwnerEvent.apply : OwnerEvent → Store → Store
  | .tick microseconds, s => { s with now := s.now + microseconds }
  | .user userId known, s => { s with users := Function.update s.users userId known }
  | .agent agentId claimedBy, s => { s with agents := Function.update s.agents agentId claimedBy }
  | .subscriptions rows, s => { s with subscriptions := rows }
  | .contact owner peer row, s => s.setContact owner peer row
  | .invite code row, s => { s with invites := Function.update s.invites code row }
  | .settings roomId row, s =>
    s.putRoom roomId fun room => { row with ownerId := room.ownerId, ownerType := room.ownerType }

def rooms : System (Calls Store RoomId) (CallAction OwnerRequest OwnerEvent) := calls OwnerRequest.program OwnerEvent.apply

section Outlines

variable {R : Rely Store RoomId} {held : RoomId → Prop} {s : Store}

theorem findRoomMember_eq_some {members : List RoomMember} {participant : Participant} {member : RoomMember}
    (h : findRoomMember members participant = some member) : member ∈ members ∧ member.agentId = participant := by
  have hfound := List.find?_some h
  simp only [decide_eq_true_eq] at hfound
  exact ⟨List.mem_of_find?_eq_some h, hfound.1⟩

theorem sound_loadRoomMemberAsCaller {roomId : RoomId} {userId : UserId} {next : Room → RoomMember → Call}
    (h : ∀ t u room caller, t.rooms roomId = some room → R.Later (fun x => held x ∨ x = roomId) t u → R.inv u →
      u.seat roomId (.human userId) = some caller → (next room caller).Sound R (fun x => held x ∨ x = roomId) u) :
    (loadRoomMemberAsCaller roomId userId next).Sound R held s := by
  refine sound_lockRoom fun t room _ _ hroom => sound_loadMember fun u hu hinv => ?_
  split
  · trivial
  · rename_i caller hcaller
    exact h t u room caller hroom hu hinv (Option.filter_eq_some_iff.mp hcaller).1

theorem sound_effectiveHumanRoomRole {roomId : RoomId} {room : Room} {userId : UserId} {humanRole : RoomRole}
    {next : Option RoomRole → Call}
    (h : ∀ t role, R.Later held s t → R.inv t → (next role).Sound R held t) :
    (effectiveHumanRoomRole roomId room userId humanRole next).Sound R held s :=
  .select fun _ ht _ => .select fun u hu hinv => h u _ (ht.trans hu) hinv

theorem sound_ofOwnType {found : Option RoomMember} {next : RoomMember → Call}
    (h : ∀ member, found = some member → (next member).Sound R held s) : (ofOwnType found next).Sound R held s := by
  unfold ofOwnType
  split
  · trivial
  · exact .require fun _ => h _ rfl

end Outlines

end BotCord.Personal
