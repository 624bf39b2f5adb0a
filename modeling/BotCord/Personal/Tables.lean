import BotCord.Contacts.Service

/-!
# Personal rooms

The tables of `hub/models.py` that membership of a room without a space depends on, with the columns that a call here reads. Two columns are no tables, and no statement reads them: `answered` is the invite calls that were answered with "redeemed", and `entered` is how many members were ever inserted in a room.

A row of a member is found by its room and its participant; an update or a delete names it by its id as well, so that it misses a row that was deleted and inserted again.
-/

namespace BotCord.Personal

open Rooms (Participant RoomRole ApprovalState)
open Subscriptions (ParticipantType)
open Spaces (UserId AgentId Instant)
open Contacts (Contact participantTypeFor)

abbrev RoomId := String
abbrev ProductId := String

inductive RoomVisibility
  | public_ | private_
deriving DecidableEq

inductive RoomJoinPolicy
  | open_ | inviteOnly
deriving DecidableEq

structure Room where
  ownerId : Participant
  ownerType : ParticipantType := .agent
  visibility : RoomVisibility := .private_
  joinPolicy : RoomJoinPolicy := .inviteOnly
  maxMembers : Option ℕ := none
  requiredSubscriptionProductId : Option ProductId := none
  defaultInvite : Bool := false
deriving DecidableEq

structure RoomMember where
  id : ℕ
  roomId : RoomId
  agentId : Participant
  participantType : ParticipantType := .agent
  role : RoomRole := .member
  canInvite : Option Bool := none

def RoomMember.key (m : RoomMember) : RoomId × Participant := (m.roomId, m.agentId)

structure AgentSubscription where
  productId : ProductId
  subscriberAgentId : AgentId
deriving DecidableEq

inductive InviteKind
  | friend
  | room (roomId : RoomId)

structure Invite where
  kind : InviteKind
  creatorAgentId : Participant
  expiresAt : Option Instant := none
  maxUses : ℕ := 1
  useCount : ℕ := 0
  revokedAt : Option Instant := none

structure InviteRedemption where
  code : String
  redeemerAgentId : AgentId
deriving DecidableEq

structure Approval where
  agentId : AgentId
  ownerUserId : UserId
  roomId : RoomId
  canInvite : Option Bool := none
  state : ApprovalState := .pending

/-- Agents with the users who claimed them. -/
structure Store where
  now : Instant := 0
  users : UserId → Bool := fun _ => false
  agents : AgentId → Option (Option UserId) := fun _ => none
  rooms : RoomId → Option Room := fun _ => none
  members : Keyed RoomMember.key := {}
  nextMember : ℕ := 1
  subscriptions : List AgentSubscription := []
  contacts : Participant → Participant → Option Contact := fun _ _ => none
  invites : String → Option Invite := fun _ => none
  redemptions : Keyed (id : InviteRedemption → InviteRedemption) := {}
  approvals : ℕ → Option Approval := fun _ => none
  answered : List InviteRedemption := []
  entered : RoomId → ℕ := fun _ => 0

abbrev Call := Program Store RoomId

namespace Store

variable (s : Store)

def seat (roomId : RoomId) (participant : Participant) : Option RoomMember := s.members.get? (roomId, participant)

def seats (roomId : RoomId) : ℕ := s.members.rows.countP (·.roomId = roomId)

def Subscribed (productId : ProductId) (agentId : AgentId) : Prop := { productId, subscriberAgentId := agentId } ∈ s.subscriptions
deriving Decidable

/-- Insert a member under the next id; a participant has one row in a room, and the room exists. -/
def insertMember (member : RoomMember) : Option Store :=
  if s.rooms member.roomId = none then none
  else (s.members.insert? { member with id := s.nextMember }).map fun members =>
    { s with
      members
      nextMember := s.nextMember + 1
      entered := Function.update s.entered member.roomId (s.entered member.roomId + 1) }

/-- Update a member that was read; the transaction fails where the row is gone. -/
def updateMember (member : RoomMember) (role : RoomRole) : Option Store :=
  if (s.seat member.roomId member.agentId).any (·.id = member.id) then
    some { s with members := s.members.modify (fun m => m.key = member.key ∧ m.id = member.id) fun m => { m with role } }
  else none

/-- Delete a member that was read; where the row is gone nothing happens. -/
def deleteMember (member : RoomMember) : Store :=
  { s with members := s.members.remove fun m => m.key = member.key ∧ m.id = member.id }

def putRoom (roomId : RoomId) (f : Room → Room) : Store :=
  { s with rooms := Function.update s.rooms roomId ((s.rooms roomId).map f) }

def putInvite (code : String) (f : Invite → Invite) : Store :=
  { s with invites := Function.update s.invites code ((s.invites code).map f) }

def setContact (owner peer : Participant) (row : Option Contact) : Store :=
  { s with contacts := Function.update s.contacts owner (Function.update (s.contacts owner) peer row) }

def insertContact (owner peer : Participant) (row : Contact) : Option Store :=
  if s.contacts owner peer = none then some (s.setContact owner peer (some row)) else none

def insertRedemption (code : String) (agentId : AgentId) : Option Store :=
  (s.redemptions.insert? { code, redeemerAgentId := agentId }).map fun redemptions => { s with redemptions }

def answer (code : String) (agentId : AgentId) : Store :=
  { s with answered := s.answered ++ [{ code, redeemerAgentId := agentId }] }

end Store

/-- The clock of the process, read between two statements. -/
def clock (next : Instant → Call) : Call := .select fun s => next s.now

/-- `select(Room)`. -/
def loadRoom (roomId : RoomId) (next : Room → Call) : Call :=
  .select fun s =>
    match s.rooms roomId with
    | none => .reject
    | some room => next room

/-- `select(RoomMember)` of one participant. -/
def loadMember (roomId : RoomId) (participant : Participant) (next : Option RoomMember → Call) : Call :=
  .select fun s => next (s.seat roomId participant)

/-- `select(Room).with_for_update()`. -/
def lockRoom (roomId : RoomId) (next : Room → Call) : Call :=
  .lock (fun s => (s.rooms roomId).map fun _ => roomId) fun s =>
    match s.rooms roomId with
    | none => .reject
    | some room => next room

def waitForRoom (roomId : RoomId) (next : Call) : Call := .lock (fun s => (s.rooms roomId).map fun _ => roomId) fun _ => next

/-- `_load_room`: the room and then its members. -/
def loadRoomWithMembers (roomId : RoomId) (next : Room → List RoomMember → Call) : Call :=
  loadRoom roomId fun room => .select fun s => next room (s.members.rows.filter (·.roomId = roomId))

/-- `_require_membership`: an agent's row. -/
def requireMembership (members : List RoomMember) (agentId : AgentId) (next : RoomMember → Call) : Call :=
  match members.find? fun m => m.agentId = .agent agentId ∧ m.participantType = .agent with
  | none => .reject
  | some member => next member

/-- `leave_room`; `asRead` is what is said of its reads when it commits. -/
def leaveRoom (asRead : RoomMember → Store → Bool) (roomId : RoomId) (agentId : AgentId) : Call :=
  loadRoomWithMembers roomId fun _ members => requireMembership members agentId fun member =>
    .require (member.role ≠ .owner) <| .commit (asRead member) fun s => some (s.deleteMember member)

/-- `remove_contact`: the contact and, where there is one, its reverse. -/
def removeContact (agentId : AgentId) (peer : Participant) : Call :=
  .select fun s => .require (s.contacts (.agent agentId) peer ≠ none) <| .select fun s =>
    let reverse := s.contacts peer (.agent agentId)
    .commit (fun _ => true) fun s =>
      let s := s.setContact (.agent agentId) peer none
      some (if reverse.isSome then s.setContact peer (.agent agentId) none else s)

/-- `_ensure_invite_active`. -/
def InviteActive (invite : Invite) (now : Instant) : Prop :=
  invite.revokedAt = none ∧ (∀ expiresAt ∈ invite.expiresAt, now ≤ expiresAt) ∧ invite.useCount < invite.maxUses
deriving Decidable

/-- What a redeeming call has read: the invite, and for a room the room and how many members it had. -/
structure Read where
  invite : Invite
  room : Option (Room × ℕ) := none

/-- `_record_redemption` with the flush and the commit. Where a constraint is violated everything is rolled back; that expires the invite, and to read its code again, as is done next, raises. -/
def recordRedemption (code : String) (agentId : AgentId) (invite : Invite) (connect : Store → Option Store) (s : Store) :
    Option Store :=
  ((connect s).bind (·.insertRedemption code agentId)).map fun t =>
    (t.putInvite code fun row => { row with useCount := invite.useCount + 1 }).answer code agentId

def connectFriend (creator : Participant) (agentId : AgentId) (s : Store) : Option Store :=
  let redeemerType := participantTypeFor (.agent agentId)
  let creatorType := participantTypeFor creator
  (s.insertContact (.agent agentId) creator { ownerType := redeemerType, peerType := creatorType }).bind
    (·.insertContact creator (.agent agentId) { ownerType := creatorType, peerType := redeemerType })

def connectRoom (roomId : RoomId) (agentId : AgentId) (s : Store) : Option Store :=
  s.insertMember { id := 0, roomId, agentId := .agent agentId }

/-- `_ensure_subscription_access`. -/
def ensureSubscriptionAccess (room : Room) (agentId : AgentId) (next : Call) : Call :=
  match room.requiredSubscriptionProductId with
  | none => next
  | some productId =>
    if room.ownerId = .agent agentId then next
    else .select fun s => .require (s.Subscribed productId agentId) next

def ensureNotFull (roomId : RoomId) (room : Room) (next : ℕ → Call) : Call :=
  match room.maxMembers with
  | none => next 0
  | some maxMembers => .select fun s => .require (s.seats roomId < maxMembers) <| next (s.seats roomId)

/-- `redeem_invite_for_agent`; `asRead` is what is said of its reads when it commits. -/
def redeemInviteForAgent (asRead : String → AgentId → Read → Store → Bool) (code : String) (agentId : AgentId) : Call :=
  .select fun s =>
    match s.invites code with
    | none => .reject
    | some invite =>
      match invite.kind with
      | .friend =>
        .select fun s =>
          if (s.contacts (.agent agentId) invite.creatorAgentId).isSome then .finish
          else
            .require (invite.creatorAgentId ≠ .agent agentId) <| clock fun now => .require (InviteActive invite now) <|
              .commit (asRead code agentId { invite })
                (recordRedemption code agentId invite (connectFriend invite.creatorAgentId agentId))
      | .room roomId =>
        loadRoom roomId fun room => loadMember roomId (.agent agentId) fun seat =>
          if seat.isSome then .finish
          else
            clock fun now => .require (InviteActive invite now) <| ensureSubscriptionAccess room agentId <|
              ensureNotFull roomId room fun seats => waitForRoom roomId <|
                .commit (asRead code agentId { invite, room := some (room, seats) })
                  (recordRedemption code agentId invite (connectRoom roomId agentId))

/-- `revoke_invite`. -/
def revokeInvite (code : String) (agentId : AgentId) : Call :=
  .select fun s =>
    match s.invites code with
    | none => .reject
    | some invite =>
      .require (invite.creatorAgentId = .agent agentId) <| clock fun now => .require (InviteActive invite now) <|
        .commit (fun _ => true) fun s => some (s.putInvite code fun row => { row with revokedAt := some now })

section Writes

variable {s t : Store} {roomId : RoomId} {participant : Participant} {member : RoomMember} {role : RoomRole}

theorem insertMember_eq_some (h : s.insertMember member = some t) :
    ∃ members, s.rooms member.roomId ≠ none ∧ s.members.Adds { member with id := s.nextMember } members ∧
      t = { s with
        members
        nextMember := s.nextMember + 1
        entered := Function.update s.entered member.roomId (s.entered member.roomId + 1) } := by
  obtain ⟨hroom, h⟩ := Option.ite_none_left_eq_some.mp h
  obtain ⟨members, hmembers, rfl⟩ := Option.map_eq_some_iff.mp h
  exact ⟨members, hroom, Keyed.insert?_eq_some hmembers, rfl⟩

theorem recordRedemption_eq_some {code : String} {agentId : AgentId} {invite : Invite} {connect : Store → Option Store}
    (h : recordRedemption code agentId invite connect s = some t) :
    ∃ u redemptions, connect s = some u ∧ u.redemptions.Adds { code, redeemerAgentId := agentId } redemptions ∧
      t = ({ u with redemptions }.putInvite code fun row => { row with useCount := invite.useCount + 1 }).answer code agentId := by
  obtain ⟨v, hv, rfl⟩ := Option.map_eq_some_iff.mp h
  obtain ⟨u, hu, hv⟩ := Option.bind_eq_some_iff.mp hv
  obtain ⟨redemptions, hredemptions, rfl⟩ := Option.map_eq_some_iff.mp hv
  exact ⟨u, redemptions, hu, Keyed.insert?_eq_some hredemptions, rfl⟩

theorem seat_eq_none_of_insertMember (h : s.insertMember member = some t) :
    s.seat member.roomId member.agentId = none := by
  obtain ⟨members, -, hadds, rfl⟩ := insertMember_eq_some h
  exact Keyed.get?_eq_none_iff.mpr hadds.new

theorem seat_insertMember (h : s.insertMember member = some t) : t.seat roomId participant =
    if (roomId, participant) = member.key then some { member with id := s.nextMember } else s.seat roomId participant := by
  obtain ⟨members, -, hadds, rfl⟩ := insertMember_eq_some h
  exact hadds.get?

theorem updateMember_eq_some (h : s.updateMember member role = some t) :
    (∃ m, s.seat member.roomId member.agentId = some m ∧ m.id = member.id) ∧ ∃ members, t = { s with members } ∧
      ∀ roomId participant, t.seat roomId participant =
        if (roomId, participant) = member.key then (s.seat roomId participant).map fun m => { m with role }
        else s.seat roomId participant := by
  obtain ⟨hthere, h⟩ := Option.ite_none_right_eq_some.mp h
  cases h
  obtain ⟨m, hm, hid⟩ := Option.any_eq_true _ _ |>.mp hthere
  have hid : m.id = member.id := of_decide_eq_true hid
  refine ⟨⟨m, hm, hid⟩, _, rfl, fun roomId participant => ?_⟩
  refine (Keyed.get?_modify (p := fun m : RoomMember => m.key = member.key ∧ m.id = member.id)
    (f := fun m : RoomMember => { m with role }) (fun _ => rfl) (roomId, participant)).trans ?_
  by_cases hkey : (roomId, participant) = member.key
  · have hfound : m.key = member.key := (Keyed.get?_eq_some_iff.mp hm).2
    have hm : s.members.get? (roomId, participant) = some m := by
      rw [hkey]
      exact hm
    rw [if_pos hkey, Store.seat, hm, Option.map_some, Option.map_some, if_pos ⟨hfound, hid⟩]
  · rw [if_neg hkey]
    unfold Store.seat
    cases hseat : s.members.get? (roomId, participant) with
    | none => rfl
    | some x =>
      have hx : x.key = (roomId, participant) := (Keyed.get?_eq_some_iff.mp hseat).2
      rw [Option.map_some, if_neg fun h => hkey (hx.symm.trans h.1)]

theorem seat_deleteMember : (s.deleteMember member).seat roomId participant =
    (s.seat roomId participant).filter fun m => ¬ (m.key = member.key ∧ m.id = member.id) := Keyed.get?_remove _

end Writes

section Outlines

variable {s t : Store} {held : RoomId → Prop}

variable {R : Rely Store RoomId} {roomId : RoomId}

theorem sound_loadRoom {next : Room → Call}
    (h : ∀ t room, R.Later held s t → R.inv t → t.rooms roomId = some room → (next room).Sound R held t) :
    (loadRoom roomId next).Sound R held s := by
  intro t ht hinv
  dsimp only
  split
  · trivial
  · rename_i room hroom
    exact h t room ht hinv hroom

theorem sound_clock {next : Instant → Call}
    (h : ∀ t, R.Later held s t → R.inv t → (next t.now).Sound R held t) : (clock next).Sound R held s := h

theorem sound_loadMember {participant : Participant} {next : Option RoomMember → Call}
    (h : ∀ t, R.Later held s t → R.inv t → (next (t.seat roomId participant)).Sound R held t) :
    (loadMember roomId participant next).Sound R held s := h

theorem sound_loadRoomWithMembers {next : Room → List RoomMember → Call}
    (h : ∀ t u room, R.Later held s t → R.inv t → t.rooms roomId = some room → R.Later held t u → R.inv u →
      (next room (u.members.rows.filter (·.roomId = roomId))).Sound R held u) :
    (loadRoomWithMembers roomId next).Sound R held s :=
  sound_loadRoom fun t room ht hinv hroom u hu hinv' => h t u room ht hinv hroom hu hinv'

variable {agentId : AgentId}

theorem sound_requireMembership {members : List RoomMember} {next : RoomMember → Call}
    (h : ∀ member ∈ members, member.agentId = .agent agentId → member.participantType = .agent → (next member).Sound R held s) :
    (requireMembership members agentId next).Sound R held s := by
  unfold requireMembership
  split
  · trivial
  · rename_i member hmember
    have hfound := List.find?_some hmember
    simp only [decide_eq_true_eq] at hfound
    exact h member (List.mem_of_find?_eq_some hmember) hfound.1 hfound.2

theorem sound_waitForRoom {next : Call}
    (hnone : ∀ t, R.Later held s t → R.inv t → t.rooms roomId = none → next.Sound R held t)
    (hsome : ∀ t, R.Later held s t → R.inv t → next.Sound R (fun x => held x ∨ x = roomId) t) :
    (waitForRoom roomId next).Sound R held s := by
  refine .lock (fun t ht hinv hrow => hnone t ht hinv (Option.map_eq_none_iff.mp hrow)) fun t k ht hinv hrow => ?_
  obtain ⟨_, -, rfl⟩ := Option.map_eq_some_iff.mp hrow
  exact hsome t ht hinv

theorem sound_ensureSubscriptionAccess {room : Room} {next : Call}
    (h : ∀ t, R.Later held s t → R.inv t →
      (∀ productId ∈ room.requiredSubscriptionProductId, room.ownerId = .agent agentId ∨ t.Subscribed productId agentId) →
      next.Sound R held t) (hinv : R.inv s) : (ensureSubscriptionAccess room agentId next).Sound R held s := by
  unfold ensureSubscriptionAccess
  split
  · rename_i hnone
    exact h s .refl hinv fun productId hproduct => by simp [hnone] at hproduct
  · rename_i productId hproduct
    split
    · rename_i howner
      exact h s .refl hinv fun _ _ => .inl howner
    · intro t ht hinv'
      refine .require fun hsubscribed => h t ht hinv' fun productId' hproduct' => .inr ?_
      rw [hproduct] at hproduct'
      cases hproduct'
      exact hsubscribed

theorem sound_ensureNotFull {room : Room} {next : ℕ → Call}
    (h : ∀ t seats, R.Later held s t → R.inv t → (∀ maxMembers ∈ room.maxMembers, seats = t.seats roomId ∧ seats < maxMembers) →
      (next seats).Sound R held t) (hinv : R.inv s) : (ensureNotFull roomId room next).Sound R held s := by
  unfold ensureNotFull
  split
  · rename_i hnone
    exact h s 0 .refl hinv fun maxMembers hmax => by simp [hnone] at hmax
  · rename_i maxMembers hmax
    intro t ht hinv'
    refine .require fun hfree => h t _ ht hinv' fun maxMembers' hmax' => ⟨rfl, ?_⟩
    rw [hmax] at hmax'
    cases hmax'
    exact hfree

theorem sound_lockRoom {next : Room → Call}
    (h : ∀ t room, R.Later held s t → R.inv t → t.rooms roomId = some room →
      (next room).Sound R (fun x => held x ∨ x = roomId) t) : (lockRoom roomId next).Sound R held s := by
  refine .lock (fun t _ _ hrow => ?_) fun t k ht hinv hrow => ?_
  · simp only [Option.map_eq_none_iff.mp hrow, Program.Sound]
  · obtain ⟨room, hroom, rfl⟩ := Option.map_eq_some_iff.mp hrow
    simp only [hroom]
    exact h t room ht hinv hroom

theorem sound_redeemInviteForAgent {asRead : String → AgentId → Read → Store → Bool} {code : String}
    (hfinish : ∀ t, R.inv t → R.Commits held t t)
    (hfriend : ∀ s₀ t u invite, s₀.invites code = some invite → invite.kind = .friend → R.Later held s₀ t → R.inv t →
      invite.useCount < invite.maxUses → (R.trusted → asRead code agentId { invite } t = true) →
      recordRedemption code agentId invite (connectFriend invite.creatorAgentId agentId) t = some u → R.Commits held t u)
    (hroom : ∀ held' s₀ w t u invite roomId room seats, s₀.invites code = some invite → invite.kind = .room roomId →
      R.Later held s₀ w → held' roomId ∨ w.rooms roomId = none → R.Later held' w t → R.inv t →
      invite.useCount < invite.maxUses → (∀ maxMembers ∈ room.maxMembers, seats < maxMembers) →
      (R.trusted → asRead code agentId { invite, room := some (room, seats) } t = true) →
      recordRedemption code agentId invite (connectRoom roomId agentId) t = some u → R.Commits held' t u) :
    (redeemInviteForAgent asRead code agentId).Sound R held s := by
  refine .select fun s₀ _ _ => ?_
  split
  · trivial
  · rename_i invite hinvite
    have hfinish : ∀ {v}, Program.finish.Sound R held v := .commit fun t _ hinv _ u hu => by cases hu; exact hfinish t hinv
    split
    · rename_i hkind
      refine .select fun u hu _ => ?_
      split
      · exact hfinish
      · refine .require fun _ => sound_clock fun v hv _ => .require fun hactive => .commit fun t ht hinv hread x hx => ?_
        exact hfriend s₀ t x invite hinvite hkind ((hu.trans hv).trans ht) hinv hactive.2.2 hread hx
    · rename_i roomId hkind
      refine sound_loadRoom fun u room hu _ _ => sound_loadMember fun v hv _ => ?_
      split
      · exact hfinish
      · refine sound_clock fun w hw hinv => .require fun hactive => sound_ensureSubscriptionAccess (fun x hx hinv _ => ?_) hinv
        refine sound_ensureNotFull (fun y seats hy _ hseats => ?_) hinv
        have hlater := (((hu.trans hv).trans hw).trans hx).trans hy
        have hfree : ∀ maxMembers ∈ room.maxMembers, seats < maxMembers := fun maxMembers hmax => (hseats maxMembers hmax).2
        refine sound_waitForRoom (fun z hz _ hnone => ?_) fun z hz _ => ?_
        · refine .commit fun t ht hinv hread a ha => ?_
          exact hroom held s₀ z t a invite roomId room seats hinvite hkind (hlater.trans hz) (.inr hnone) ht hinv hactive.2.2 hfree
            hread ha
        · refine .commit fun t ht hinv hread a ha => ?_
          exact hroom _ s₀ z t a invite roomId room seats hinvite hkind (hlater.trans hz) (.inl (.inr rfl)) ht hinv hactive.2.2
            hfree hread ha

end Outlines

end BotCord.Personal
