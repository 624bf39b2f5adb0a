import BotCord.Spaces.Members
import Mathlib.Data.Sym.Sym2

/-!
# Organization rooms, statement by statement

`hub/services/org_rooms.py` with the calls of `hub/services/spaces.py` that admit and remove members, and the ways into any room: `join_room_as_human`, `invite_room_member_as_human`, `create_room_invite_as_human` and `resolve_pending_approval` of `app/routers/humans.py`, `add_member` of `hub/routers/room.py` and `redeem_invite_for_agent` of `hub/invite_ops.py`, as the database statements they run.

A membership is found by its space and its user or agent, and a sponsor is named by the user. What the visibility, the policies, the contacts, the subscriptions and the grants say of a call is given with the call. Names, contacts, messages, profiles and the audit trail are left out.
-/

namespace BotCord.Rooms

open Spaces (UserId SpaceId AgentId MembershipId Instant User Space MembershipStatus AgentStatus Owner)
open Members

inductive Participant
  | human (id : UserId)
  | agent (id : AgentId)
deriving DecidableEq

/-- A generated id, or that of the direct room of a pair in a space; different digests are taken as different ids. -/
inductive RoomId
  | generated (n : ℕ)
  | dm (spaceId : SpaceId) (pair : Sym2 Participant)
deriving DecidableEq

inductive RoomRole
  | owner | admin | member
deriving DecidableEq

inductive RoomKind
  | room | dm
deriving DecidableEq

inductive SpaceVisibility
  | organization | private_
deriving DecidableEq

structure Room where
  owner : Participant
  maxMembers : Option ℕ := none
  spaceId : Option SpaceId := none
  spaceKind : RoomKind := .room
  spaceVisibility : SpaceVisibility := .private_
deriving DecidableEq

structure RoomMember where
  roomId : RoomId
  participant : Participant
  role : RoomRole := .member
deriving DecidableEq

structure Agent where
  userId : Option UserId
  claimedAt : Option Instant
  status : AgentStatus := .active
  /-- The row of `agent_ownerships`. -/
  ownership : Option Owner

structure AgentMembership where
  spaceId : SpaceId
  agentId : AgentId
  sponsor : UserId
  sponsorVersion : ℕ
  status : MembershipStatus := .invited
  version : ℕ := 1
deriving DecidableEq

def AgentMembership.key (m : AgentMembership) : SpaceId × AgentId := (m.spaceId, m.agentId)

inductive InviteKind
  | friend
  | room (roomId : RoomId)

structure Invite where
  kind : InviteKind
  creator : Participant
  revokedAt : Option Instant := none
  expiresAt : Option Instant := none
  maxUses : ℕ := 1
  useCount : ℕ := 0

inductive ApprovalState
  | pending | approved | rejected
deriving DecidableEq

/-- An entry of the approval queue; one of another kind than a room invite names no room. -/
structure Approval where
  agentId : AgentId
  ownerUserId : UserId
  roomId : Option RoomId
  state : ApprovalState := .pending

structure Store where
  now : Instant := 0
  users : UserId → Option User := fun _ => none
  spaces : SpaceId → Option Space := fun _ => none
  memberships : SpaceId → UserId → Option Membership := fun _ _ => none
  agents : AgentId → Option Agent := fun _ => none
  agentMemberships : Keyed AgentMembership.key := {}
  rooms : RoomId → Option Room := fun _ => none
  members : List RoomMember := []
  invites : String → Option Invite := fun _ => none
  redemptions : List (String × AgentId) := []
  approvals : ℕ → Option Approval := fun _ => none

inductive Row
  | space (id : SpaceId)
  | room (id : RoomId)
deriving DecidableEq

instance : MemberTables Store := ⟨Store.users, Store.spaces, Store.memberships⟩

instance : SpaceRows Row := ⟨Row.space⟩

abbrev Call := Program Store Row

namespace Store

variable (s : Store)

def agentMembership (spaceId : SpaceId) (agentId : AgentId) : Option AgentMembership :=
  s.agentMemberships.get? (spaceId, agentId)

/-- A room of a space under this id. -/
def roomOf (spaceId : SpaceId) (roomId : RoomId) : Option Room :=
  (s.rooms roomId).filter (·.spaceId = some spaceId)

def seat (roomId : RoomId) (participant : Participant) : Option RoomMember :=
  s.members.find? fun m => m.roomId = roomId ∧ m.participant = participant

def seatsIn (spaceId : SpaceId) (participants : List Participant) : List RoomMember :=
  s.members.filter fun m => (s.roomOf spaceId m.roomId).isSome ∧ m.participant ∈ participants

def sponsored (spaceId : SpaceId) (userId : UserId) : List AgentMembership :=
  s.agentMemberships.rows.filter fun m => m.spaceId = spaceId ∧ m.sponsor = userId ∧ m.status ≠ .removed

/-- Insert a seat; the room exists and a participant has one seat in it. -/
def addMember (member : RoomMember) : Option Store :=
  if (s.rooms member.roomId).isSome ∧ s.seat member.roomId member.participant = none then
    some { s with members := s.members ++ [member] }
  else none

def addMembers (s : Store) : List RoomMember → Option Store
  | [] => some s
  | m :: rest => (s.addMember m).bind fun s => s.addMembers rest

def insertRoom (roomId : RoomId) (room : Room) : Option Store :=
  if s.rooms roomId = none then some { s with rooms := Function.update s.rooms roomId (some room) } else none

def dropMembers (dropped : RoomMember → Prop) [DecidablePred dropped] : Store :=
  { s with members := s.members.filter (¬ dropped ·) }

def putMembership (spaceId : SpaceId) (userId : UserId) (membership : Membership) : Store :=
  { s with
    memberships := Function.update s.memberships spaceId
      (Function.update (s.memberships spaceId) userId (some membership)) }

def putAgentMemberships (p : AgentMembership → Prop) [DecidablePred p] (f : AgentMembership → AgentMembership)
    (hf : ∀ m, (f m).key = m.key := by intro; rfl) : Store :=
  { s with agentMemberships := s.agentMemberships.modify p f hf }

def putInvite (code : String) (invite : Invite) : Store :=
  { s with invites := Function.update s.invites code (some invite) }

def putApproval (approvalId : ℕ) (approval : Approval) : Store :=
  { s with approvals := Function.update s.approvals approvalId (some approval) }

end Store

def write (f : Store → Option Store) : Call := .commit (fun _ => true) f

def clock (next : Instant → Call) : Call := .select fun s => next s.now

/-- `_human_id`: the user has one. -/
def humanId (userId : UserId) (next : Call) : Call :=
  .select fun s => .require (s.users userId).isSome next

def spaceRoom (spaceId : SpaceId) (roomId : RoomId) (next : Room → Call) : Call :=
  .select fun s =>
    match s.roomOf spaceId roomId with
    | none => .reject
    | some room => next room

/-- `space_room` with `lock=True`. -/
def lockedSpaceRoom (spaceId : SpaceId) (roomId : RoomId) (next : Room → Call) : Call :=
  .lock (fun s => (s.roomOf spaceId roomId).map fun _ => .room roomId) fun s =>
    match s.roomOf spaceId roomId with
    | none => .reject
    | some room => next room

def memberRow (roomId : RoomId) (participant : Participant) (next : Option RoomMember → Call) : Call :=
  .select fun s => next (s.seat roomId participant)

def Store.activeMembership (s : Store) (spaceId : SpaceId) (userId : UserId) : Option (UserId × Membership) :=
  if (s.users userId).isSome then
    ((s.memberships spaceId userId).filter (·.status = .active)).map fun m => (userId, m)
  else none

/-- `_active_member_users`: every one must be active. -/
def activeMemberUsers (spaceId : SpaceId) (memberIds : List UserId) (next : List (UserId × Membership) → Call) : Call :=
  .select fun s =>
    let rows := memberIds.dedup.filterMap (s.activeMembership spaceId)
    .require (rows.length = memberIds.dedup.length) (next rows)

/-- What `require_agent_membership` asks once it has the membership. -/
def requireSponsored (spaceId : SpaceId) (agentId : AgentId) (membership : AgentMembership) (next : Call) : Call :=
  membershipOf spaceId membership.sponsor fun sponsor =>
    .require (∃ m ∈ sponsor, m.version = membership.sponsorVersion) <|
      requireMembership spaceId membership.sponsor <| .select fun s =>
        .require (∃ a ∈ s.agents agentId, a.status = .active ∧ a.claimedAt ≠ none ∧ a.userId = some membership.sponsor ∧
          a.ownership = some (.user membership.sponsor)) next

def requireAgentMembership (spaceId : SpaceId) (agentId : AgentId) (next : AgentMembership → Call) : Call :=
  .select fun s =>
    match s.agentMembership spaceId agentId with
    | none => .reject
    | some m => .require (m.status = .active) <| requireSponsored spaceId agentId m (next m)

def checkAgentAddable (spaceId : SpaceId) (actorId : UserId) (agentId : AgentId) (next : AgentMembership → Call) : Call :=
  requireAgentMembership spaceId agentId fun m =>
    if m.sponsor = actorId then next m else requireManager spaceId actorId false (next m)

def checkAgentsAddable (spaceId : SpaceId) (actorId : UserId) : List AgentId → Call → Call
  | [], next => next
  | agentId :: rest, next =>
    checkAgentAddable spaceId actorId agentId fun _ => checkAgentsAddable spaceId actorId rest next

/-- `drop_space_participants`: the delete removes the seats that it finds. -/
def dropSpaceParticipants (spaceId : SpaceId) (participants : List Participant) (next : List RoomMember → Call) : Call :=
  .select fun s => next (s.seatsIn spaceId participants)

def assertGenericRoom (roomId : RoomId) (next : Call) : Call :=
  .select fun s => .require ((s.rooms roomId).bind (·.spaceId) = none) next

def createRoom (spaceId : SpaceId) (actorId : UserId) (spaceVisibility : SpaceVisibility) (memberIds : List UserId)
    (agentIds : List AgentId) (n : ℕ) : Call :=
  organizationSpace spaceId <| requireMembership spaceId actorId <| humanId actorId <|
    activeMemberUsers spaceId memberIds fun rows => checkAgentsAddable spaceId actorId agentIds.dedup <| write fun s =>
      let others := (rows.map (·.1)).filter (· ≠ actorId)
      (s.insertRoom (.generated n) { owner := .human actorId, spaceId, spaceVisibility }).bind (·.addMembers
        ({ roomId := .generated n, participant := .human actorId, role := .owner } ::
          (others.map Participant.human ++ agentIds.dedup.map Participant.agent).map fun p => { roomId := .generated n, participant := p }))

def dmRoomId (spaceId : SpaceId) (a b : Participant) : RoomId := .dm spaceId s(a, b)

def dmRoom (spaceId : SpaceId) (owner : Participant) : Room where
  owner
  maxMembers := some 2
  spaceId
  spaceKind := .dm

def missing (roomId : RoomId) (found : List (Participant × RoomRole × Option RoomMember)) : List RoomMember :=
  found.filterMap fun x => if x.2.2 = none then some { roomId, participant := x.1, role := x.2.1 } else none

def openDm (spaceId : SpaceId) (actorId peerId : UserId) : Call :=
  let roomId := dmRoomId spaceId (.human actorId) (.human peerId)
  organizationSpace spaceId <| requireMembership spaceId actorId <| humanId actorId <|
    activeMemberUsers spaceId [peerId] fun _ => .require (peerId ≠ actorId) <| .select fun s =>
      match s.rooms roomId with
      | some _ =>
        -- A returning participant is seated again.
        memberRow roomId (.human actorId) fun actor => memberRow roomId (.human peerId) fun peer => write fun s =>
          s.addMembers (missing roomId [(.human actorId, .member, actor), (.human peerId, .member, peer)])
      | none =>
        write fun s => (s.insertRoom roomId (dmRoom spaceId (.human actorId))).bind (·.addMembers
          [{ roomId, participant := .human actorId, role := .owner }, { roomId, participant := .human peerId }])

/-- Whether the actor has a live grant for the agent in the space is given with the call. -/
def openAgentDm (spaceId : SpaceId) (actorId : UserId) (agentId : AgentId) (granted : Bool) : Call :=
  let roomId := dmRoomId spaceId (.human actorId) (.agent agentId)
  organizationSpace spaceId <| requireMembership spaceId actorId <| requireAgentMembership spaceId agentId fun m =>
    .require (m.sponsor = actorId ∨ granted = true) <| humanId actorId <| .select fun s =>
      let found := s.rooms roomId
      memberRow roomId (.human actorId) fun actor => memberRow roomId (.agent agentId) fun agent => write fun s =>
        ((if found = none then s.insertRoom roomId (dmRoom spaceId (.human actorId)) else some s)).bind (·.addMembers
          (missing roomId [(.human actorId, .owner, actor), (.agent agentId, .member, agent)]))

def joinRoom (spaceId : SpaceId) (actorId : UserId) (roomId : RoomId) : Call :=
  requiredMembership spaceId actorId fun membership => spaceRoom spaceId roomId fun room => humanId actorId <|
    memberRow roomId (.human actorId) fun seat =>
      if seat ≠ none then .finish
      else .require (room.spaceKind = .room ∧ room.spaceVisibility = .organization) <|
        .commit (fun s => s.memberships spaceId actorId = some membership) fun s =>
          s.addMember { roomId, participant := .human actorId }

def addAgent (spaceId : SpaceId) (actorId : UserId) (roomId : RoomId) (agentId : AgentId) : Call :=
  requireMembership spaceId actorId <| lockedSpaceRoom spaceId roomId fun room => .require (room.spaceKind = .room) <|
    humanId actorId <| memberRow roomId (.human actorId) fun actor => .require (actor.isSome = true) <|
      checkAgentAddable spaceId actorId agentId fun membership => memberRow roomId (.agent agentId) fun existing =>
        if existing ≠ none then .finish
        else .commit (fun s => s.agentMembership spaceId agentId = some membership) fun s =>
          s.addMember { roomId, participant := .agent agentId }

def unseated (roomId : RoomId) : List UserId → (List RoomMember → Call) → Call
  | [], next => next []
  | userId :: rest, next =>
    memberRow roomId (.human userId) fun seat => unseated roomId rest fun found =>
      next (missing roomId [(.human userId, .member, seat)] ++ found)

def addMembers (spaceId : SpaceId) (actorId : UserId) (roomId : RoomId) (memberIds : List UserId) : Call :=
  requireMembership spaceId actorId <| lockedSpaceRoom spaceId roomId fun room => .require (room.spaceKind = .room) <|
    humanId actorId <| memberRow roomId (.human actorId) fun actor => .require (actor.isSome = true) <|
      activeMemberUsers spaceId memberIds fun rows => unseated roomId (rows.map (·.1)) fun added =>
        .commit (fun s => ∀ row ∈ rows, s.memberships spaceId row.1 = some row.2) (·.addMembers added)

def removeParticipant (spaceId : SpaceId) (actorId : UserId) (roomId : RoomId) (participant : Participant) : Call :=
  requireMembership spaceId actorId <| lockedSpaceRoom spaceId roomId fun room => humanId actorId <|
    memberRow roomId participant fun found =>
      match found with
      | none => .finish
      | some row =>
        let remove : Call := .require (row.role ≠ .owner ∨ room.spaceKind ≠ .room) <| write fun s =>
          some (s.dropMembers fun m => m.roomId = roomId ∧ m.participant = participant)
        let manager := requireManager spaceId actorId false remove
        if participant = .human actorId then remove
        else memberRow roomId (.human actorId) fun actor =>
          if ∃ m ∈ actor, m.role = .owner ∨ m.role = .admin then remove
          else
            match participant with
            | .human _ => manager
            | .agent agentId => .select fun s =>
              if (s.agents agentId).any (·.userId = some actorId) then remove else manager

def inviteUser (spaceId : SpaceId) (actorId targetId : UserId) (id : MembershipId) : Call :=
  organizationSpace spaceId <| requireManager spaceId actorId false <| activeUser targetId <|
    membershipOf spaceId targetId fun found =>
      match found with
      | none => write fun s => some (s.putMembership spaceId targetId { id, status := .invited })
      | some found =>
        if found.status = .active ∨ found.status = .invited then .finish
        else write fun s => some (s.putMembership spaceId targetId
          { id := found.id, status := .invited, version := found.version + 1 })

def acceptInvitation (spaceId : SpaceId) (userId : UserId) : Call :=
  organizationSpace spaceId <| activeUser userId <| membershipOf spaceId userId fun found =>
    match found with
    | none => .reject
    | some found =>
      .require (found.status = .invited ∨ found.status = .active) <|
        if found.status = .active then .finish
        else write fun s => some (s.putMembership spaceId userId
          { found with status := .active, version := found.version + 1, roles := found.roles ++ [.member] })

def AgentMembership.remove (m : AgentMembership) : AgentMembership :=
  { m with status := .removed, version := m.version + 1 }

/-- The user leaves the rooms of the space, and so do the agents that the user sponsors. -/
def removeUser (spaceId : SpaceId) (actorId targetId : UserId) : Call :=
  organizationSpace spaceId <| requireRemover spaceId actorId targetId <| membershipOf spaceId targetId fun found =>
    match found with
    | none => .reject
    | some found => rolesFor spaceId targetId fun roles =>
      let remove : Call :=
        if found.status = .removed then .finish
        else .select fun s =>
          let agents := s.sponsored spaceId targetId
          let left := Participant.human targetId :: agents.map fun m => .agent m.agentId
          dropSpaceParticipants spaceId left fun dropped =>
            .commit (fun s => ∀ m ∈ s.seatsIn spaceId left, m ∈ dropped) fun s =>
              some (((s.putMembership spaceId targetId
                { id := found.id, status := .removed, version := found.version + 1 }).putAgentMemberships
                  (· ∈ agents) AgentMembership.remove).dropMembers (· ∈ dropped))
      .require (.owner ∉ roles) <|
        if .admin ∈ roles ∧ actorId ≠ targetId then requireManager spaceId actorId true remove else remove

/-- The agent's registration in the personal space of its owner is left out. -/
def requestAgentAdmission (spaceId : SpaceId) (userId : UserId) (agentId : AgentId) : Call :=
  organizationSpace spaceId <| requiredMembership spaceId userId fun sponsor => .select fun s =>
    .require (∃ a ∈ s.agents agentId, a.userId = some userId ∧ a.status = .active ∧ a.claimedAt ≠ none) <| .select fun s =>
      match s.agentMembership spaceId agentId with
      | none => write fun s => (s.agentMemberships.insert?
          { spaceId, agentId, sponsor := userId, sponsorVersion := sponsor.version }).map fun agentMemberships =>
            { s with agentMemberships }
      | some m =>
        if m.status = .active ∨ m.status = .invited then .finish
        else write fun s => some (s.putAgentMemberships (·.key = (spaceId, agentId)) fun m =>
          { m with status := .invited, version := m.version + 1, sponsor := userId, sponsorVersion := sponsor.version })

def approveAgent (spaceId : SpaceId) (actorId : UserId) (agentId : AgentId) : Call :=
  organizationSpace spaceId <| requireManager spaceId actorId false <| .select fun s =>
    match s.agentMembership spaceId agentId with
    | none => .reject
    | some m =>
      .require (m.status = .invited ∨ m.status = .active) <| requireSponsored spaceId agentId m <|
        if m.status = .active then .finish
        else write fun s => some (s.putAgentMemberships (·.key = (spaceId, agentId)) fun m =>
          { m with status := .active, version := m.version + 1 })

def removeAgent (spaceId : SpaceId) (actorId : UserId) (agentId : AgentId) : Call :=
  organizationSpace spaceId <| requireMembership spaceId actorId <| .select fun s =>
    match s.agentMembership spaceId agentId with
    | none => .reject
    | some m =>
      let remove : Call :=
        if m.status = .removed then .finish
        else dropSpaceParticipants spaceId [.agent agentId] fun dropped =>
          .commit (fun s => ∀ m ∈ s.seatsIn spaceId [.agent agentId], m ∈ dropped) fun s =>
            some ((s.putAgentMemberships (·.key = (spaceId, agentId)) AgentMembership.remove).dropMembers (· ∈ dropped))
      if m.sponsor = actorId then remove else requireManager spaceId actorId false remove

def withinSize (roomId : RoomId) (maxMembers : Option ℕ) (next : Call) : Call :=
  match maxMembers with
  | none => next
  | some limit => .select fun s => .require ((s.members.filter (·.roomId = roomId)).length < limit) next

def lockedRoom (roomId : RoomId) (next : Room → Call) : Call :=
  .lock (fun s => (s.rooms roomId).map fun _ => .room roomId) fun s =>
    match s.rooms roomId with
    | none => .reject
    | some room => next room

def loadRoom (roomId : RoomId) (next : Room → Call) : Call :=
  .select fun s =>
    match s.rooms roomId with
    | none => .reject
    | some room => next room

def seatInGenericRoom (roomId : RoomId) (participant : Participant) : Call :=
  assertGenericRoom roomId <| write (·.addMember { roomId, participant })

def joinRoomAsHuman (userId : UserId) (roomId : RoomId) (permitted : Bool) : Call :=
  lockedRoom roomId fun room => memberRow roomId (.human userId) fun seat =>
    .require (seat = none ∧ permitted = true) <| withinSize roomId room.maxMembers <|
      seatInGenericRoom roomId (.human userId)

/-- An invited agent that someone else has claimed waits for its owner. -/
def queueApproval (roomId : RoomId) (agentId : AgentId) (ownerUserId : UserId) (approvalId : ℕ) : Call :=
  write fun s => if s.approvals approvalId = none then
    some (s.putApproval approvalId { agentId, ownerUserId, roomId := some roomId }) else none

/-- The user who has claimed a participant, where that is an agent. -/
def Store.claimedBy (s : Store) : Participant → Option UserId
  | .human _ => none
  | .agent agentId => (s.agents agentId).bind (·.userId)

def Store.known (s : Store) : Participant → Bool
  | .human userId => (s.users userId).isSome
  | .agent agentId => (s.agents agentId).isSome

def seatOrQueue (roomId : RoomId) (room : Room) (participant : Participant) (owner : Option UserId) (approvalId : ℕ) :
    Call :=
  match participant, owner with
  | .agent agentId, some ownerUserId => queueApproval roomId agentId ownerUserId approvalId
  | _, _ => withinSize roomId room.maxMembers <| seatInGenericRoom roomId participant

def inviteRoomMemberAsHuman (userId : UserId) (roomId : RoomId) (participant : Participant) (permitted : Bool)
    (approvalId : ℕ) : Call :=
  lockedRoom roomId fun room => memberRow roomId (.human userId) fun inviter =>
    .require (inviter.isSome = true ∧ permitted = true ∧ participant ≠ .human userId) <| .select fun s =>
      let owner := (s.claimedBy participant).filter (· ≠ userId)
      .require (s.known participant = true) <| memberRow roomId participant fun seat => .require (seat = none) <|
        seatOrQueue roomId room participant owner approvalId

/-- An agent joins a room itself or invites another participant; the room is not locked. -/
def addMember (agentId : AgentId) (roomId : RoomId) (participant : Participant) (permitted : Bool) (approvalId : ℕ) : Call :=
  loadRoom roomId fun room => .require (permitted = true) <|
    if participant = .agent agentId then withinSize roomId room.maxMembers <| seatInGenericRoom roomId participant
    else memberRow roomId (.agent agentId) fun inviter => .require (inviter.isSome = true) <| .select fun s =>
      .require (s.known participant = true) <|
        seatOrQueue roomId room participant (s.claimedBy participant) approvalId

/-- An entry whose agent has a seat already is approved all the same. -/
def resolvePendingApproval (userId : UserId) (approvalId : ℕ) (approve : Bool) : Call :=
  .select fun s =>
    match s.approvals approvalId with
    | none => .reject
    | some approval =>
      .require (approval.ownerUserId = userId ∧ approval.state = .pending) <|
        let resolve (s : Store) (state : ApprovalState) : Store := s.putApproval approvalId { approval with state }
        match approve, approval.roomId with
        | false, _ => write fun s => some (resolve s .rejected)
        | true, none => write fun s => some (resolve s .approved)
        | true, some roomId => assertGenericRoom roomId <| write fun s =>
          some (((resolve s .approved).addMember { roomId, participant := .agent approval.agentId }).getD
            (resolve s .approved))

def createRoomInviteAsHuman (userId : UserId) (roomId : RoomId) (permitted : Bool) (expiresInHours : Option ℕ) (maxUses : ℕ)
    (code : String) : Call :=
  loadRoom roomId fun _ => memberRow roomId (.human userId) fun inviter =>
    .require (inviter.isSome = true ∧ permitted = true) <| clock fun now => write fun s =>
      if s.invites code = none then
        some (s.putInvite code
          { kind := .room roomId, creator := .human userId, maxUses := max 1 maxUses,
            expiresAt := (expiresInHours.filter (· ≠ 0)).map fun hours => now + hours * 3600000000 })
      else none

/-- `_ensure_invite_active`. -/
def Invite.Active (invite : Invite) (now : Instant) : Prop :=
  invite.revokedAt = none ∧ (∀ expiresAt ∈ invite.expiresAt, now ≤ expiresAt) ∧ invite.useCount < invite.maxUses
deriving Decidable

/-- `_record_redemption`: a second one of the same agent takes back what the call has written. -/
def Store.recordRedemption (s : Store) (code : String) (invite : Invite) (agentId : AgentId) : Option Store :=
  if (code, agentId) ∈ s.redemptions then none
  else some { s.putInvite code { invite with useCount := invite.useCount + 1 } with
    redemptions := s.redemptions ++ [(code, agentId)] }

def Store.Active (s : Store) (spaceId : SpaceId) : Participant → Prop
  | .human userId => ∃ m ∈ s.memberships spaceId userId, m.status = .active
  | .agent agentId => ∃ m ∈ s.agentMembership spaceId agentId, m.status = .active

instance (s : Store) (spaceId : SpaceId) : DecidablePred (s.Active spaceId)
  | .human userId => inferInstanceAs (Decidable (∃ m ∈ s.memberships spaceId userId, m.status = .active))
  | .agent agentId => inferInstanceAs (Decidable (∃ m ∈ s.agentMembership spaceId agentId, m.status = .active))

/-- The room is of no space, or the participant is an active member of its space. -/
def Store.MaySit (s : Store) (room : Room) (participant : Participant) : Prop :=
  ∀ spaceId ∈ room.spaceId, s.Active spaceId participant
deriving Decidable

def redeemInviteForAgent (code : String) (agentId : AgentId) (subscribed : Bool) : Call :=
  .select fun s =>
    match s.invites code with
    | none => .reject
    | some invite =>
      match invite.kind with
      | .friend =>
        .require (invite.creator ≠ .agent agentId) <| clock fun now => .require (invite.Active now) <|
          write (·.recordRedemption code invite agentId)
      | .room roomId => loadRoom roomId fun room => memberRow roomId (.agent agentId) fun seat =>
        if seat ≠ none then .finish
        else
          clock fun now => .require (invite.Active now ∧ subscribed = true) <| withinSize roomId room.maxMembers <|
            .commit (·.MaySit room (.agent agentId)) fun s =>
              (s.addMember { roomId, participant := .agent agentId }).bind (·.recordRedemption code invite agentId)

inductive Request
  | createRoom (spaceId : SpaceId) (actorId : UserId) (spaceVisibility : SpaceVisibility) (memberIds : List UserId)
      (agentIds : List AgentId) (n : ℕ)
  | openDm (spaceId : SpaceId) (actorId peerId : UserId)
  | openAgentDm (spaceId : SpaceId) (actorId : UserId) (agentId : AgentId) (granted : Bool)
  | joinRoom (spaceId : SpaceId) (actorId : UserId) (roomId : RoomId)
  | addAgent (spaceId : SpaceId) (actorId : UserId) (roomId : RoomId) (agentId : AgentId)
  | addMembers (spaceId : SpaceId) (actorId : UserId) (roomId : RoomId) (memberIds : List UserId)
  | removeParticipant (spaceId : SpaceId) (actorId : UserId) (roomId : RoomId) (participant : Participant)
  | inviteUser (spaceId : SpaceId) (actorId targetId : UserId) (id : MembershipId)
  | acceptInvitation (spaceId : SpaceId) (userId : UserId)
  | removeUser (spaceId : SpaceId) (actorId targetId : UserId)
  | requestAgentAdmission (spaceId : SpaceId) (userId : UserId) (agentId : AgentId)
  | approveAgent (spaceId : SpaceId) (actorId : UserId) (agentId : AgentId)
  | removeAgent (spaceId : SpaceId) (actorId : UserId) (agentId : AgentId)
  | joinRoomAsHuman (userId : UserId) (roomId : RoomId) (permitted : Bool)
  | inviteRoomMemberAsHuman (userId : UserId) (roomId : RoomId) (participant : Participant) (permitted : Bool)
      (approvalId : ℕ)
  | addMember (agentId : AgentId) (roomId : RoomId) (participant : Participant) (permitted : Bool) (approvalId : ℕ)
  | resolvePendingApproval (userId : UserId) (approvalId : ℕ) (approve : Bool)
  | createRoomInviteAsHuman (userId : UserId) (roomId : RoomId) (permitted : Bool) (expiresInHours : Option ℕ) (maxUses : ℕ)
      (code : String)
  | redeemInviteForAgent (code : String) (agentId : AgentId) (subscribed : Bool)

def Request.program : Request → Call
  | .createRoom spaceId actorId spaceVisibility memberIds agentIds n =>
    Rooms.createRoom spaceId actorId spaceVisibility memberIds agentIds n
  | .openDm spaceId actorId peerId => Rooms.openDm spaceId actorId peerId
  | .openAgentDm spaceId actorId agentId granted => Rooms.openAgentDm spaceId actorId agentId granted
  | .joinRoom spaceId actorId roomId => Rooms.joinRoom spaceId actorId roomId
  | .addAgent spaceId actorId roomId agentId => Rooms.addAgent spaceId actorId roomId agentId
  | .addMembers spaceId actorId roomId memberIds => Rooms.addMembers spaceId actorId roomId memberIds
  | .removeParticipant spaceId actorId roomId participant => Rooms.removeParticipant spaceId actorId roomId participant
  | .inviteUser spaceId actorId targetId id => Rooms.inviteUser spaceId actorId targetId id
  | .acceptInvitation spaceId userId => Rooms.acceptInvitation spaceId userId
  | .removeUser spaceId actorId targetId => Rooms.removeUser spaceId actorId targetId
  | .requestAgentAdmission spaceId userId agentId => Rooms.requestAgentAdmission spaceId userId agentId
  | .approveAgent spaceId actorId agentId => Rooms.approveAgent spaceId actorId agentId
  | .removeAgent spaceId actorId agentId => Rooms.removeAgent spaceId actorId agentId
  | .joinRoomAsHuman userId roomId permitted => Rooms.joinRoomAsHuman userId roomId permitted
  | .inviteRoomMemberAsHuman userId roomId participant permitted approvalId =>
    Rooms.inviteRoomMemberAsHuman userId roomId participant permitted approvalId
  | .addMember agentId roomId participant permitted approvalId =>
    Rooms.addMember agentId roomId participant permitted approvalId
  | .resolvePendingApproval userId approvalId approve => Rooms.resolvePendingApproval userId approvalId approve
  | .createRoomInviteAsHuman userId roomId permitted expiresInHours maxUses code =>
    Rooms.createRoomInviteAsHuman userId roomId permitted expiresInHours maxUses code
  | .redeemInviteForAgent code agentId subscribed => Rooms.redeemInviteForAgent code agentId subscribed

/-- Time passes, users and agents change, a generic room is opened by its owner, and someone leaves a room. -/
inductive Event
  | tick (microseconds : ℕ)
  | user (userId : UserId) (row : User)
  | agent (agentId : AgentId) (row : Agent)
  | genericRoom (n : ℕ) (owner : Participant) (maxMembers : Option ℕ)
  | leave (roomId : RoomId) (participant : Participant)

def Event.apply : Event → Store → Store
  | .tick microseconds, s => { s with now := s.now + microseconds }
  | .user userId row, s => { s with users := Function.update s.users userId (some row) }
  | .agent agentId row, s => { s with agents := Function.update s.agents agentId (some row) }
  | .genericRoom n owner maxMembers, s =>
    ((s.insertRoom (.generated n) { owner, maxMembers }).bind
      (·.addMember { roomId := .generated n, participant := owner, role := .owner })).getD s
  | .leave roomId participant, s => s.dropMembers fun m => m.roomId = roomId ∧ m.participant = participant

def orgRooms : System (Calls Store Row) (CallAction Request Event) := calls (fun r _ => r.program) Event.apply

end BotCord.Rooms
