import BotCord.Spaces.Members
import BotCord.Spaces.Service

/-!
# Invite links, statement by statement

`accept`, `revoke_link` and `create_link` of `hub/services/org_invites.py` with `invite_user`, `accept_invitation` and `remove_user` of `hub/services/spaces.py`, as the database statements they run. The audit trail, what a redeemed link says of its redeemer, and the agents and rooms that a removed member takes along are left out.
-/

namespace BotCord.Invites

open Spaces (UserId SpaceId LinkId MembershipId Instant User Space InviteLink MembershipStatus linkStatus)
open Members

/-- What became of a membership, by whom. An entry of a link has the moment at which its call began. -/
inductive Entry
  | joined (linkId : LinkId) (userId : UserId) (startedAt : Instant)
  | invited (actorId userId : UserId)
  | accepted (userId : UserId)
  | removed (actorId userId : UserId)

/-- The tables. The history of a space is what its memberships went through; no statement reads it. -/
structure Store where
  now : Instant := 0
  users : UserId → Option User := fun _ => none
  spaces : SpaceId → Option Space := fun _ => none
  links : Keyed InviteLink.id := {}
  memberships : SpaceId → UserId → Option Membership := fun _ _ => none
  history : SpaceId → List Entry := fun _ => []

inductive Row
  | link (id : LinkId)
  | space (id : SpaceId)
deriving DecidableEq

instance : MemberTables Store := ⟨Store.users, Store.spaces, Store.memberships⟩

instance : SpaceRows Row := ⟨Row.space⟩

abbrev Call := Program Store Row

namespace Store

variable (s : Store)

def linkByCode (code : String) : Option InviteLink := s.links.rows.find? (·.code = code)

def putLink (id : LinkId) (f : InviteLink → InviteLink) (hf : ∀ l, (f l).id = l.id := by intro; rfl) : Store :=
  { s with links := s.links.modify (·.id = id) f hf }

/-- Write a membership, new or under its key, with the roles that are bound to it. -/
def putMembership (spaceId : SpaceId) (userId : UserId) (membership : Membership) (entry : Entry) : Store :=
  { s with
    memberships := Function.update s.memberships spaceId
      (Function.update (s.memberships spaceId) userId (some membership))
    history := Function.update s.history spaceId (s.history spaceId ++ [entry]) }

def insertMembership (spaceId : SpaceId) (userId : UserId) (membership : Membership) (entry : Entry) : Option Store :=
  if s.memberships spaceId userId = none then some (s.putMembership spaceId userId membership entry) else none

def insertLink (link : InviteLink) : Option Store :=
  if ∀ l ∈ s.links, l.code ≠ link.code then (s.links.insert? link).map fun links => { s with links } else none

def grantBetaAccess (userId : UserId) : Store :=
  { s with users := Function.update s.users userId ((s.users userId).map fun u => { u with betaAccess := true }) }

end Store

/-- The clock of the process, read between two statements. -/
def clock (next : Instant → Call) : Call := .select fun s => next s.now

def write (f : Store → Option Store) : Call := .commit (fun _ => true) f

def createLink (spaceId : SpaceId) (actorId : UserId) (expiresInDays maxUses : Option ℕ) (id : LinkId) (code : String) :
    Call :=
  organizationSpace spaceId <| requireManager spaceId actorId false <|
    .require (∀ days ∈ expiresInDays, 1 ≤ days ∧ days ≤ 90) <|
    .require (∀ uses ∈ maxUses, 1 ≤ uses ∧ uses ≤ Spaces.maxUsesLimit) <|
    -- The row is its inserter's until the commit.
    clock fun now => .lock (fun _ => some (.link id)) fun _ => write fun s =>
      s.insertLink { id, spaceId, code, maxUses, expiresAt := expiresInDays.map fun days => now + days * Spaces.day }

def revoked (now : Instant) (link : InviteLink) : InviteLink := { link with revokedAt := some now }

def revokeLink (spaceId : SpaceId) (actorId : UserId) (linkId : LinkId) : Call :=
  .select fun s =>
    match s.links.get? linkId with
    | none => .reject
    | some link =>
      .require (link.spaceId = spaceId) <| requireManager spaceId actorId false <|
        if link.revokedAt = none then
          -- The row was not locked when it was read; the update waits for it.
          clock fun now => .lock (fun s => (s.links.get? linkId).map fun _ => .link linkId) fun s =>
            match s.links.get? linkId with
            | none => .reject
            | some _ => write fun s => some (s.putLink linkId (revoked now))
        else .finish

def redeem (link : InviteLink) (userId : UserId) (s : Store) : Store :=
  (s.putLink link.id fun l => { l with useCount := link.useCount + 1 }).grantBetaAccess userId

/-- `accept`: the caller becomes an active member. -/
def accept (code : String) (userId : UserId) (id : MembershipId) (startedAt : Instant) : Call :=
  .lock (fun s => (s.linkByCode code).map fun link => .link link.id) fun s =>
    match s.linkByCode code with
    | none => .reject
    | some link =>
      organizationSpace link.spaceId <| activeUser userId <| membershipOf link.spaceId userId fun found =>
        match found with
        | none =>
          clock fun now => .require (linkStatus link now = .active) <| write fun s =>
            (s.insertMembership link.spaceId userId { id, status := .active, roles := [.member] }
              (.joined link.id userId startedAt)).map (redeem link userId)
        | some found =>
          if found.status = .active then .finish
          else
            clock fun now => .require (linkStatus link now = .active) <|
              .require (found.status ≠ .removed ∧ found.status ≠ .suspended) <| write fun s =>
                some (redeem link userId (s.putMembership link.spaceId userId
                  { id := found.id, status := .active, version := found.version + 1, roles := [.member] }
                  (.joined link.id userId startedAt)))

def inviteUser (spaceId : SpaceId) (actorId targetId : UserId) (id : MembershipId) : Call :=
  organizationSpace spaceId <| requireManager spaceId actorId false <| activeUser targetId <|
    membershipOf spaceId targetId fun found =>
      match found with
      | none => write (·.insertMembership spaceId targetId { id, status := .invited } (.invited actorId targetId))
      | some found =>
        if found.status = .active ∨ found.status = .invited then .finish
        else write fun s => some (s.putMembership spaceId targetId
          { id := found.id, status := .invited, version := found.version + 1 } (.invited actorId targetId))

def acceptInvitation (spaceId : SpaceId) (userId : UserId) : Call :=
  organizationSpace spaceId <| activeUser userId <| membershipOf spaceId userId fun found =>
    match found with
    | none => .reject
    | some found =>
      .require (found.status = .invited ∨ found.status = .active) <|
        if found.status = .active then .finish
        else write fun s => some (s.putMembership spaceId userId
          { found with status := .active, version := found.version + 1, roles := found.roles ++ [.member] }
          (.accepted userId))

def removeUser (spaceId : SpaceId) (actorId targetId : UserId) : Call :=
  organizationSpace spaceId <| requireRemover spaceId actorId targetId <| membershipOf spaceId targetId fun found =>
    match found with
    | none => .reject
    | some found => rolesFor spaceId targetId fun roles =>
      let remove : Call :=
        if found.status = .removed then .finish
        else write fun s => some (s.putMembership spaceId targetId
          { id := found.id, status := .removed, version := found.version + 1 } (.removed actorId targetId))
      .require (.owner ∉ roles) <|
        if .admin ∈ roles ∧ actorId ≠ targetId then requireManager spaceId actorId true remove else remove

inductive Request
  | createLink (spaceId : SpaceId) (actorId : UserId) (expiresInDays maxUses : Option ℕ) (id : LinkId) (code : String)
  | revokeLink (spaceId : SpaceId) (actorId : UserId) (linkId : LinkId)
  | accept (code : String) (userId : UserId) (id : MembershipId)
  | inviteUser (spaceId : SpaceId) (actorId targetId : UserId) (id : MembershipId)
  | acceptInvitation (spaceId : SpaceId) (userId : UserId)
  | removeUser (spaceId : SpaceId) (actorId targetId : UserId)

def Request.program : Request → Store → Call
  | .createLink spaceId actorId expiresInDays maxUses id code, _ =>
    Invites.createLink spaceId actorId expiresInDays maxUses id code
  | .revokeLink spaceId actorId linkId, _ => Invites.revokeLink spaceId actorId linkId
  | .accept code userId id, s => Invites.accept code userId id s.now
  | .inviteUser spaceId actorId targetId id, _ => Invites.inviteUser spaceId actorId targetId id
  | .acceptInvitation spaceId userId, _ => Invites.acceptInvitation spaceId userId
  | .removeUser spaceId actorId targetId, _ => Invites.removeUser spaceId actorId targetId

/-- Time passes, and other parts of the hub change users. -/
inductive Event
  | tick (microseconds : ℕ)
  | user (userId : UserId) (row : Option User)

def Event.apply : Event → Store → Store
  | .tick microseconds, s => { s with now := s.now + microseconds }
  | .user userId row, s => { s with users := Function.update s.users userId row }

def invites : System (Calls Store Row) (CallAction Request Event) := calls Request.program Event.apply

end BotCord.Invites
