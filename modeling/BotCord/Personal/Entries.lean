import BotCord.Personal.Tables

/-!
# Ways into a personal room

`add_member` of `hub/routers/room.py`, and `join_room_as_human`, `invite_room_member_as_human` and the room invites of `resolve_pending_approval` of `app/routers/humans.py`, as the database statements they run. A redeemed invite is the fifth way.

The calls of agents insert under no lock; the calls of humans lock the room first. An insert refers to the room and waits for a call that has locked it. What the admission policies and the rate limit say is given with the call.
-/

namespace BotCord.Personal

open Rooms (Participant RoomRole ApprovalState)
open Subscriptions (ParticipantType)
open Spaces (UserId AgentId)
open Contacts (participantTypeFor)

/-- `_can_invite`: a member's own permission, where an agent's row gives no ownership of a human's room. -/
def canInvite (room : Room) (member : RoomMember) : Prop :=
  (member.role = .owner ∧ room.ownerType ≠ .human) ∨ (room.visibility = .public_ ∧ room.joinPolicy = .open_) ∨
    member.canInvite.getD (member.role = .admin ∨ room.defaultInvite) = true
deriving Decidable

/-- `room_member_can_invite`. -/
def roomMemberCanInvite (room : Room) (member : RoomMember) : Prop :=
  member.role = .owner ∨ (room.visibility = .public_ ∧ room.joinPolicy = .open_) ∨
    member.canInvite.getD (member.role = .admin ∨ room.defaultInvite) = true
deriving Decidable

def ownedBy (agents : AgentId → Option (Option UserId)) (userId : UserId) : Participant → Bool
  | .agent agentId => agents agentId = some (some userId)
  | .human _ => false

def Store.ownedMembers (s : Store) (agents : AgentId → Option (Option UserId)) (roomId : RoomId) (userId : UserId) : List RoomMember :=
  s.members.rows.filter fun m => m.roomId = roomId ∧ m.participantType = .agent ∧ ownedBy agents userId m.agentId = true

def strongestRoomRole (roles : List RoomRole) : Option RoomRole :=
  if .owner ∈ roles then some .owner else if .admin ∈ roles then some .admin else if .member ∈ roles then some .member else none

/-- `effective_human_room_role`: the role of a human's row, of the rows of the human's agents, and that of the owner where one of them owns the room. -/
def effectiveHumanRoomRole (roomId : RoomId) (room : Room) (userId : UserId) (humanRole : RoomRole)
    (next : Option RoomRole → Call) : Call :=
  .select fun s =>
    let agents := s.agents
    .select fun s =>
      next (strongestRoomRole (humanRole ::
        (if room.ownerType = .agent ∧ ownedBy agents userId room.ownerId = true then [.owner] else []) ++
          (s.ownedMembers agents roomId userId).map (·.role)))

def Store.AdminsRoom (s : Store) (agents : AgentId → Option (Option UserId)) (roomId : RoomId) (userId : UserId) : Prop :=
  ∃ m ∈ s.ownedMembers agents roomId userId, m.role = .owner ∨ m.role = .admin
deriving Decidable

/-- `viewer_can_admin_room`, without an active agent. -/
def viewerCanAdminRoom (roomId : RoomId) (room : Room) (userId : UserId) (next : Bool → Call) : Call :=
  .select fun s =>
    if room.ownerType = .agent ∧ ownedBy s.agents userId room.ownerId = true then next true
    else
      .select fun s =>
        let agents := s.agents
        .select fun s => next (s.AdminsRoom agents roomId userId)

inductive Access
  | noProduct
  | owner
  | subscribed (productId : ProductId) (agentId : AgentId)
  | authority (userId : UserId)
  | unchecked

/-- What an inserting call has read: the room, how many members it had, and what let the new one in. -/
structure EntryRead where
  roomId : RoomId
  participant : Participant
  room : Room
  seats : ℕ
  access : Access

section Calls

variable (asRead : EntryRead → Store → Bool)

def insertEntry (read : EntryRead) (role : RoomRole) (canInvite : Option Bool) : Call :=
  let participantType := participantTypeFor read.participant
  waitForRoom read.roomId <| .commit (asRead read) fun s =>
    s.insertMember { id := 0, roomId := read.roomId, agentId := read.participant, participantType, role, canInvite }

/-- `_ensure_subscription_room_access`. -/
def ensureSubscriptionRoomAccess (room : Room) (agentId : AgentId) (next : Access → Call) : Call :=
  match room.requiredSubscriptionProductId with
  | none => next .noProduct
  | some productId =>
    if room.ownerId = .agent agentId then next .owner
    else .select fun s => .require (s.Subscribed productId agentId) <| next (.subscribed productId agentId)

def queueApproval (id : ℕ) (approval : Approval) : Call :=
  .commit (fun _ => true) fun s =>
    if s.approvals id = none then some { s with approvals := Function.update s.approvals id (some approval) } else none

/-- The checks that `add_member` makes of every entry. -/
def addMemberChecked (roomId : RoomId) (room : Room) (seats : ℕ) (participant : Participant) (canInvite : Option Bool) : Call :=
  .require (∀ maxMembers ∈ room.maxMembers, seats < maxMembers) <|
    match participant with
    | .agent agentId => ensureSubscriptionRoomAccess room agentId fun access =>
      insertEntry asRead { roomId, participant, room, seats, access } .member canInvite
    | .human _ => insertEntry asRead { roomId, participant, room, seats, access := .noProduct } .member canInvite

/-- `add_member`: an agent joins, or invites another participant. -/
def addMember (roomId : RoomId) (currentAgent : AgentId) (target : Option Participant) (canInvite? : Option Bool)
    (admitted : Bool) (approvalId : ℕ) : Call :=
  loadRoomWithMembers roomId fun room members =>
    let participant := target.getD (.agent currentAgent)
    let checked := addMemberChecked asRead roomId room members.length participant canInvite?
    if participant = .agent currentAgent then
      let isOpen : Prop := room.visibility = .public_ ∧ room.joinPolicy = .open_
      match room.requiredSubscriptionProductId with
      | none => .require isOpen checked
      | some productId =>
        if room.visibility = .public_ then .select fun s => .require (s.Subscribed productId currentAgent ∨ isOpen) checked
        else .require isOpen checked
    else
      requireMembership members currentAgent fun inviter => .require (canInvite room inviter) <|
        match participant with
        | .agent agentId => .select fun s =>
          match s.agents agentId with
          | none => .reject
          | some claimedBy => .require (admitted = true) <|
            match claimedBy with
            | some ownerUserId => queueApproval approvalId { agentId, ownerUserId, roomId, canInvite := canInvite? }
            | none => checked
        | .human userId => .select fun s => .require (s.users userId = true) <| .select fun s =>
          .require (s.contacts (.agent currentAgent) (.human userId) = some { ownerType := .agent, peerType := .human }) <|
            .require (room.requiredSubscriptionProductId = none) checked

/-- `join_room_as_human`. -/
def joinRoomAsHuman (roomId : RoomId) (userId : UserId) : Call :=
  lockRoom roomId fun room => loadMember roomId (.human userId) fun found =>
    .require (¬ found.any (·.participantType = .human)) <| viewerCanAdminRoom roomId room userId fun canAdmin =>
      .require (canAdmin = true ∨ room.visibility = .public_ ∧ room.joinPolicy = .open_) <|
        let isOwnerSelfSeat : Prop := room.ownerType = .human ∧ room.ownerId = .human userId
        .require (room.requiredSubscriptionProductId = none ∨ isOwnerSelfSeat ∨ canAdmin = true) <|
          ensureNotFull roomId room fun seats =>
            let access : Access := if room.requiredSubscriptionProductId = none then .noProduct
              else if isOwnerSelfSeat then .owner else .authority userId
            insertEntry asRead { roomId, participant := .human userId, room, seats, access } .member none

/-- The gate of `invite_room_member_as_human`. -/
def inviteSubscriptionGate (room : Room) (participant : Participant) (next : Access → Call) : Call :=
  match participant with
  | .agent agentId => ensureSubscriptionRoomAccess room agentId next
  | .human _ =>
    if room.requiredSubscriptionProductId = none then next .noProduct
    else .require (room.ownerType = .human ∧ participant = room.ownerId) <| next .owner

/-- `invite_room_member_as_human`: a human seats an unclaimed or an own agent, or a human. -/
def inviteRoomMemberAsHuman (roomId : RoomId) (userId : UserId) (participant : Participant) (role : RoomRole)
    (admitted : Bool) (approvalId : ℕ) : Call :=
  lockRoom roomId fun room => loadMember roomId (.human userId) fun found =>
    match found.filter (·.participantType = .human) with
    | none => .reject
    | some inviter => .select fun s =>
      let agents := s.agents
      .select fun s =>
        .require (roomMemberCanInvite room inviter ∨ ∃ m ∈ s.ownedMembers agents roomId userId, roomMemberCanInvite room m) <|
        .require (participant ≠ .human userId) <| .select fun s =>
          let target := match participant with
            | .agent agentId => s.agents agentId
            | .human peerId => if s.users peerId then some none else none
          match target with
          | none => .reject
          | some claimedBy => loadMember roomId participant fun existing => .require (existing = none) <|
            let insert : Call := inviteSubscriptionGate room participant fun access => ensureNotFull roomId room fun seats =>
              insertEntry asRead { roomId, participant, room, seats, access } (if role = .admin then .admin else .member) none
            match participant, claimedBy with
            | .agent agentId, some ownerUserId =>
              if ownerUserId = userId then insert
              else .require (admitted = true) <| queueApproval approvalId { agentId, ownerUserId, roomId }
            | .agent _, none => .require (admitted = true) insert
            | .human _, _ => insert

/-- An approved room invite: the member and the entry, or the entry alone where there is a duplicate. -/
def approveRoomInvite (id : ℕ) (approval : Approval) (s : Store) : Store :=
  let member : RoomMember := { id := 0, roomId := approval.roomId, agentId := .agent approval.agentId, canInvite := approval.canInvite }
  let s := (s.insertMember member).getD s
  { s with approvals := Function.update s.approvals id (some { approval with state := .approved }) }

/-- `resolve_pending_approval` of a room invite: nothing of the room is checked again. -/
def resolveRoomInvite (id : ℕ) (userId : UserId) (approve : Bool) : Call :=
  .select fun s =>
    match s.approvals id with
    | none => .reject
    | some approval => .require (approval.ownerUserId = userId) <| .require (approval.state = .pending) <|
      if approve = true then
        .select fun s =>
          let participant := .agent approval.agentId
          let room := (s.rooms approval.roomId).getD { ownerId := participant }
          waitForRoom approval.roomId <|
            .commit (asRead { roomId := approval.roomId, participant, room, seats := 0, access := .unchecked })
              (some ∘ approveRoomInvite id approval)
      else
        .commit (fun _ => true) fun s =>
          some { s with approvals := Function.update s.approvals id (some { approval with state := .rejected }) }

end Calls

structure EntryRead.Checked (read : EntryRead) : Prop where
  free : ∀ maxMembers ∈ read.room.maxMembers, read.seats < maxMembers
  access : match read.access with
    | .noProduct => read.room.requiredSubscriptionProductId = none
    | .owner => read.room.ownerId = read.participant
    | .subscribed productId agentId =>
      read.room.requiredSubscriptionProductId = some productId ∧ read.participant = .agent agentId
    | .authority userId => read.participant = .human userId
    | .unchecked => False

section Outlines

variable {R : Rely Store RoomId} {asRead : EntryRead → Store → Bool} {held : RoomId → Prop} {s : Store}

/-- The row that a call inserts. -/
def EntryRead.row (read : EntryRead) (role : RoomRole) (canInvite : Option Bool) : RoomMember where
  id := 0
  roomId := read.roomId
  agentId := read.participant
  participantType := participantTypeFor read.participant
  role := role
  canInvite := canInvite

/-- What the outline of a call asks of its insertion, at whatever moment it commits: the room is locked by then, or there was none. -/
def Inserts (R : Rely Store RoomId) (asRead : EntryRead → Store → Bool) (read : EntryRead) (row : RoomMember)
    (held : RoomId → Prop) (s : Store) : Prop :=
  ∀ held' w t u, held' read.roomId ∨ w.rooms read.roomId = none → R.Later held s w → R.Later held' w t → R.inv t →
    (R.trusted → asRead read t = true) → t.insertMember row = some u → R.Commits held' t u

variable {canInvite : Option Bool} {role : RoomRole}

theorem sound_insertEntry {read : EntryRead}
    (h : Inserts R asRead read (read.row role canInvite) held s) : (insertEntry asRead read role canInvite).Sound R held s := by
  refine sound_waitForRoom (fun w hw _ hnone => ?_) fun w hw _ => ?_
  · exact .commit fun t ht hinv hread u hu => h held w t u (.inr hnone) hw ht hinv hread hu
  · exact .commit fun t ht hinv hread u hu => h _ w t u (.inl (.inr rfl)) hw ht hinv hread hu

variable {room : Room}

theorem sound_ensureSubscriptionRoomAccess {agentId : AgentId} {next : Access → Call}
    (h : ∀ t access, R.Later held s t → R.inv t →
      (∀ roomId seats, (∀ maxMembers ∈ room.maxMembers, seats < maxMembers) →
        EntryRead.Checked { roomId, participant := .agent agentId, room, seats, access }) →
      (next access).Sound R held t) (hinv : R.inv s) :
    (ensureSubscriptionRoomAccess room agentId next).Sound R held s := by
  unfold ensureSubscriptionRoomAccess
  split
  · rename_i hnone
    exact h s .noProduct .refl hinv fun _ _ hfree => ⟨hfree, hnone⟩
  · rename_i productId hproduct
    split
    · rename_i howner
      exact h s .owner .refl hinv fun _ _ hfree => ⟨hfree, howner⟩
    · exact fun t ht hinv => .require fun _ => h t _ ht hinv fun _ _ hfree => ⟨hfree, hproduct, rfl⟩

def InsertsChecked (R : Rely Store RoomId) (asRead : EntryRead → Store → Bool) : Prop :=
  ∀ held s read role canInvite, role ≠ .owner → read.Checked → Inserts R asRead read (read.row role canInvite) held s

/-- What a call asks of its insertion that has locked the room before it counted the members. -/
def InsertsLocked (R : Rely Store RoomId) (asRead : EntryRead → Store → Bool) : Prop :=
  ∀ held s₀ s₁ s read role canInvite, held read.roomId → s₀.rooms read.roomId = some read.room → R.Later held s₀ s₁ →
    (∀ maxMembers ∈ read.room.maxMembers, read.seats = s₁.seats read.roomId) → R.Later held s₁ s → role ≠ .owner →
    read.Checked → Inserts R asRead read (read.row role canInvite) held s

def QueuesApprovals (R : Rely Store RoomId) : Prop :=
  ∀ held s approvals, R.inv s → R.Commits held s { s with approvals }

theorem sound_queueApproval (hqueue : QueuesApprovals R) {id : ℕ} {approval : Approval} :
    (queueApproval id approval).Sound R held s := by
  refine .commit fun t _ hinv _ u hu => ?_
  obtain ⟨-, hu⟩ := Option.ite_none_right_eq_some.mp hu
  cases hu
  exact hqueue held t _ hinv

variable {participant : Participant} {roomId : RoomId}

theorem sound_addMemberChecked (hinsert : InsertsChecked R asRead) {seats : ℕ}
    (hinv : R.inv s)
    (hhuman : ∀ userId, participant = .human userId → room.requiredSubscriptionProductId = none) :
    (addMemberChecked asRead roomId room seats participant canInvite).Sound R held s := by
  refine .require fun hfree => ?_
  cases participant with
  | agent agentId =>
    refine sound_ensureSubscriptionRoomAccess (fun t access _ _ hchecked => ?_) hinv
    exact sound_insertEntry (hinsert held t _ .member canInvite (by decide) (hchecked roomId seats hfree))
  | human userId => exact sound_insertEntry (hinsert held s _ .member canInvite (by decide) ⟨hfree, hhuman userId rfl⟩)

theorem sound_addMember (hqueue : QueuesApprovals R) (hinsert : InsertsChecked R asRead)
    {currentAgent : AgentId} {target : Option Participant} {admitted : Bool} {approvalId : ℕ} :
    (addMember asRead roomId currentAgent target canInvite admitted approvalId).Sound R held s := by
  refine sound_loadRoomWithMembers fun t u room _ _ _ _ hinv => ?_
  dsimp only
  split
  · rename_i hself
    have hchecked : ∀ {v}, R.inv v → (addMemberChecked asRead roomId room
        (u.members.rows.filter (·.roomId = roomId)).length (target.getD (.agent currentAgent)) canInvite).Sound R held v :=
      fun hinv => sound_addMemberChecked hinsert hinv fun userId hhuman => by simp [hself] at hhuman
    split
    · exact .require fun _ => hchecked hinv
    · split
      · exact .select fun v _ hinv => .require fun _ => hchecked hinv
      · exact .require fun _ => hchecked hinv
  · refine sound_requireMembership fun inviter _ _ _ => .require fun _ => ?_
    split
    · rename_i agentId hagent
      refine .select fun v _ hinv => ?_
      split
      · trivial
      · refine .require fun _ => ?_
        split
        · exact sound_queueApproval hqueue
        · exact sound_addMemberChecked hinsert hinv fun userId hhuman => by simp [hagent] at hhuman
    · refine .select fun v _ _ => .require fun _ => .select fun w _ hinv => .require fun _ => .require fun hnone => ?_
      exact sound_addMemberChecked hinsert hinv fun _ _ => hnone

variable {userId : UserId}

theorem sound_viewerCanAdminRoom {next : Bool → Call}
    (h : ∀ t canAdmin, R.Later held s t → R.inv t → (next canAdmin).Sound R held t) :
    (viewerCanAdminRoom roomId room userId next).Sound R held s := by
  refine .select fun t ht hinv => ?_
  split
  · exact h t true ht hinv
  · exact .select fun u hu _ => .select fun v hv hinv => h v _ ((ht.trans hu).trans hv) hinv

theorem sound_insertCounted (hinsert : InsertsLocked R asRead)
    {access : Access} {s₀ : Store} (hheld : held roomId)
    (hroom : s₀.rooms roomId = some room) (hlater : R.Later held s₀ s) (hinv : R.inv s) (hrole : role ≠ .owner)
    (hchecked : ∀ seats, (∀ maxMembers ∈ room.maxMembers, seats < maxMembers) →
      EntryRead.Checked { roomId, participant, room, seats, access }) :
    (ensureNotFull roomId room fun seats =>
      insertEntry asRead { roomId, participant, room, seats, access } role canInvite).Sound R held s := by
  refine sound_ensureNotFull (fun t seats ht _ hseats => ?_) hinv
  refine sound_insertEntry (hinsert held s₀ t t _ role canInvite hheld hroom (hlater.trans ht) ?_ .refl hrole ?_)
  · exact fun maxMembers hmax => (hseats maxMembers hmax).1
  · exact hchecked seats fun maxMembers hmax => (hseats maxMembers hmax).2

theorem sound_joinRoomAsHuman (hinsert : InsertsLocked R asRead) :
    (joinRoomAsHuman asRead roomId userId).Sound R held s := by
  refine sound_lockRoom fun t room _ _ hroom => sound_loadMember fun u hu _ => .require fun _ => ?_
  refine sound_viewerCanAdminRoom fun v canAdmin hv hinv => .require fun _ => .require fun hgate => ?_
  refine sound_insertCounted hinsert (.inr rfl) hroom (hu.trans hv) hinv (by decide) fun seats hfree => ⟨hfree, ?_⟩
  dsimp only
  by_cases hproduct : room.requiredSubscriptionProductId = none
  · rw [if_pos hproduct]
    exact hproduct
  · rw [if_neg hproduct]
    by_cases howner : room.ownerType = .human ∧ room.ownerId = .human userId
    · rw [if_pos howner]
      exact howner.2
    · rw [if_neg howner]

theorem sound_inviteSubscriptionGate {next : Access → Call}
    (h : ∀ t access, R.Later held s t → R.inv t →
      (∀ roomId seats, (∀ maxMembers ∈ room.maxMembers, seats < maxMembers) →
        EntryRead.Checked { roomId, participant, room, seats, access }) →
      (next access).Sound R held t) (hinv : R.inv s) :
    (inviteSubscriptionGate room participant next).Sound R held s := by
  unfold inviteSubscriptionGate
  split
  · exact sound_ensureSubscriptionRoomAccess h hinv
  · split
    · rename_i hnone
      exact h s .noProduct .refl hinv fun _ _ hfree => ⟨hfree, hnone⟩
    · exact .require fun howner => h s .owner .refl hinv fun _ _ hfree => ⟨hfree, howner.2.symm⟩

theorem sound_inviteRoomMemberAsHuman (hqueue : QueuesApprovals R) (hinsert : InsertsLocked R asRead)
    {admitted : Bool} {approvalId : ℕ} :
    (inviteRoomMemberAsHuman asRead roomId userId participant role admitted approvalId).Sound R held s := by
  refine sound_lockRoom fun t room _ _ hroom => sound_loadMember fun u hu _ => ?_
  split
  · trivial
  · refine .select fun v hv _ => .select fun w hw _ => .require fun _ => .require fun _ => .select fun x hx _ => ?_
    dsimp only
    split
    · trivial
    · refine sound_loadMember fun y hy hinv => .require fun _ => ?_
      have hlater := (((hu.trans hv).trans hw).trans hx).trans hy
      have hcommit : (inviteSubscriptionGate room participant fun access => ensureNotFull roomId room fun seats =>
          insertEntry asRead { roomId, participant, room, seats, access } (if role = .admin then .admin else .member)
            none).Sound R (fun x => held x ∨ x = roomId) y := by
        refine sound_inviteSubscriptionGate (fun z access hz hinv hchecked => ?_) hinv
        refine sound_insertCounted hinsert (.inr rfl) hroom (hlater.trans hz) hinv ?_ (hchecked roomId)
        split
        · decide
        · decide
      split
      · split
        · exact hcommit
        · exact .require fun _ => sound_queueApproval hqueue
      · exact .require fun _ => hcommit
      · exact hcommit

/-- What a call asks of the approval of a room invite, at whatever moment it commits. -/
def ApprovesInvites (R : Rely Store RoomId) (asRead : EntryRead → Store → Bool) : Prop :=
  ∀ (id : ℕ) (approval : Approval) (read : EntryRead), read.roomId = approval.roomId →
    read.participant = .agent approval.agentId → read.access = .unchecked → ∀ held w t,
      held approval.roomId ∨ w.rooms approval.roomId = none → R.Later held w t → R.inv t →
        (R.trusted → asRead read t = true) → R.Commits held t (approveRoomInvite id approval t)

theorem sound_resolveRoomInvite (hqueue : QueuesApprovals R) (happrove : ApprovesInvites R asRead) {id : ℕ}
    {approve : Bool} : (resolveRoomInvite asRead id userId approve).Sound R held s := by
  refine .select fun t _ _ => ?_
  split
  · trivial
  · rename_i approval _
    refine .require fun _ => .require fun _ => ?_
    split
    · refine .select fun u _ _ => sound_waitForRoom (fun w _ _ hnone => ?_) fun w _ _ => ?_
      · refine .commit fun t ht hinv hread v hv => ?_
        cases hv
        exact happrove id approval _ rfl rfl rfl held w t (.inr hnone) ht hinv hread
      · refine .commit fun t ht hinv hread v hv => ?_
        cases hv
        exact happrove id approval _ rfl rfl rfl _ w t (.inl (.inr rfl)) ht hinv hread
    · refine .commit fun t _ hinv _ v hv => ?_
      cases hv
      exact hqueue held t _ hinv

end Outlines

end BotCord.Personal
