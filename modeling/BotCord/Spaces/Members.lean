import BotCord.Foundation.Statements
import BotCord.Spaces.Tables

/-!
# Checking a member, statement by statement

The checks that the calls of `hub/services/spaces.py` begin with, over any store that has the tables they read. A membership is found by its space and its user, and the roles that are bound to it are kept with it.
-/

namespace BotCord.Members

open Spaces (UserId SpaceId MembershipId User Space MembershipStatus RoleKey)

structure Membership where
  id : MembershipId
  status : MembershipStatus
  version : ℕ := 1
  /-- The role bindings of the membership. -/
  roles : List RoleKey := []
deriving DecidableEq

/-- The tables that say who is a member of which space. -/
class MemberTables (σ : Type) where
  users : σ → UserId → Option User
  spaces : σ → SpaceId → Option Space
  memberships : σ → SpaceId → UserId → Option Membership

/-- The rows that can be locked, those of the spaces among them. -/
class SpaceRows (κ : Type) where
  space : SpaceId → κ

open MemberTables

variable {σ κ : Type} [MemberTables σ]

def activeUser (userId : UserId) (next : Program σ κ) : Program σ κ :=
  .select fun s =>
    match users s userId with
    | none => .reject
    | some user => .require user.Enabled next

/-- `organization_space`: the space row is locked. -/
def organizationSpace [SpaceRows κ] (spaceId : SpaceId) (next : Program σ κ) : Program σ κ :=
  .lock (fun s => (spaces s spaceId).map fun _ => SpaceRows.space spaceId) fun s =>
    match spaces s spaceId with
    | none => .reject
    | some space => .require (space.kind = .organization ∧ space.status = .active) next

def membershipOf (spaceId : SpaceId) (userId : UserId) (next : Option Membership → Program σ κ) : Program σ κ :=
  .select fun s => next (memberships s spaceId userId)

def requireMembership (spaceId : SpaceId) (userId : UserId) (next : Program σ κ) : Program σ κ :=
  activeUser userId <| membershipOf spaceId userId fun found =>
    .select fun s =>
      match spaces s spaceId, found with
      | some space, some found => .require (space.status = .active ∧ found.status = .active) next
      | _, _ => .reject

/-- `require_membership` for a call that goes on with the membership. -/
def requiredMembership (spaceId : SpaceId) (userId : UserId) (next : Membership → Program σ κ) : Program σ κ :=
  activeUser userId <| membershipOf spaceId userId fun found =>
    .select fun s =>
      match spaces s spaceId, found with
      | some space, some found => .require (space.status = .active ∧ found.status = .active) (next found)
      | _, _ => .reject

def rolesFor (spaceId : SpaceId) (userId : UserId) (next : List RoleKey → Program σ κ) : Program σ κ :=
  .select fun s => next (((memberships s spaceId userId).map (·.roles)).getD [])

def requireManager (spaceId : SpaceId) (userId : UserId) (ownerOnly : Bool) (next : Program σ κ) : Program σ κ :=
  requireMembership spaceId userId <| rolesFor spaceId userId fun roles =>
    .require (.owner ∈ roles ∨ (ownerOnly = false ∧ .admin ∈ roles)) next

def requireRemover (spaceId : SpaceId) (actorId targetId : UserId) (next : Program σ κ) : Program σ κ :=
  if actorId = targetId then requireMembership spaceId actorId next else requireManager spaceId actorId false next

def Manager (s : σ) (spaceId : SpaceId) (userId : UserId) : Prop :=
  ∃ m ∈ memberships s spaceId userId, m.status = .active ∧ (.owner ∈ m.roles ∨ .admin ∈ m.roles)

section Outlines

variable {R : Rely σ κ} {held : κ → Prop} {s : σ} {k : SpaceId} {userId : UserId}

variable {next : Program σ κ}

theorem sound_activeUser (h : next.Sound R held s) :
    (activeUser userId next).Sound R held s := by
  refine .select fun t ht _ => ?_
  split
  · trivial
  · exact .require fun _ => h.later ht

theorem sound_organizationSpace [SpaceRows κ]
    (h : ∀ t, R.Later held s t → next.Sound R (fun x => held x ∨ x = SpaceRows.space k) t) :
    (organizationSpace k next).Sound R held s := by
  refine .lock (fun t _ _ hnone => ?_) fun t r ht _ hsome => ?_
  · rw [Option.map_eq_none_iff] at hnone
    simp only [hnone, Program.Sound]
  · obtain ⟨space, hspace, rfl⟩ := Option.map_eq_some_iff.mp hsome
    simp only [hspace]
    exact .require fun _ => h t ht

theorem sound_membershipOf {next : Option Membership → Program σ κ}
    (h : ∀ t, R.Later held s t → (next (memberships t k userId)).Sound R held t) :
    (membershipOf k userId next).Sound R held s := .select fun t ht _ => h t ht

theorem sound_requiredMembership {next : Membership → Program σ κ}
    (h : ∀ t, R.Later held s t → ∀ m ∈ memberships t k userId, m.status = .active → (next m).Sound R held t) :
    (requiredMembership k userId next).Sound R held s := by
  refine sound_activeUser (sound_membershipOf fun t ht => .select fun u hu _ => ?_)
  cases hspace : spaces u k with
  | none => trivial
  | some space =>
    cases hm : memberships t k userId with
    | none => trivial
    | some m => exact .require fun hactive => (h t ht m hm hactive.2).later hu

theorem sound_requireMembership
    (h : ∀ t, R.Later held s t → ∀ m ∈ memberships t k userId, m.status = .active → next.Sound R held t) :
    (requireMembership k userId next).Sound R held s := sound_requiredMembership h

theorem sound_rolesFor {next : List RoleKey → Program σ κ}
    (h : ∀ t, R.Later held s t → (next (((memberships t k userId).map (·.roles)).getD [])).Sound R held t) :
    (rolesFor k userId next).Sound R held s := .select fun t ht _ => h t ht

theorem sound_requireManager {ownerOnly : Bool} (h : next.Sound R held s) :
    (requireManager k userId ownerOnly next).Sound R held s :=
  sound_requireMembership fun _ ht _ _ _ => sound_rolesFor fun _ hu => .require fun _ => h.later (ht.trans hu)

/-- Where the memberships of the space stay as they are, a manager is one still after the check. -/
theorem sound_requireManager_of_stable {ownerOnly : Bool}
    (hstable : ∀ t u, R.Later held t u → memberships u k = memberships t k)
    (h : ∀ t, R.Later held s t → Manager t k userId → next.Sound R held t) :
    (requireManager k userId ownerOnly next).Sound R held s := by
  refine sound_requireMembership fun t ht m hm hactive => sound_rolesFor fun u hu => .require fun hroles => ?_
  have hm : memberships u k userId = some m := (congrFun (hstable t u hu) userId).trans hm
  rw [hm] at hroles
  exact h u (ht.trans hu) ⟨m, hm, hactive, hroles.imp_right And.right⟩

theorem sound_requireRemover {actorId : UserId} (h : next.Sound R held s) :
    (requireRemover k actorId userId next).Sound R held s := by
  unfold requireRemover
  split
  · exact sound_requireMembership fun _ ht _ _ _ => h.later ht
  · exact sound_requireManager h

end Outlines

end BotCord.Members
