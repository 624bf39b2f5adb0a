import BotCord.Personal.Ownership

/-!
# A room has one owner

A call of a human works on a room that it has locked, so the owner it has read is the owner when it commits. A call of an agent does not, and what it writes may come after another has handed the room over.
-/

namespace BotCord.Personal

open Rooms (Participant RoomRole)
open Subscriptions (ParticipantType)
open Spaces (UserId AgentId)
open Contacts (participantTypeFor)

def Store.ownerOf (s : Store) (roomId : RoomId) : Option (Participant × ParticipantType) :=
  (s.rooms roomId).map fun room => (room.ownerId, room.ownerType)

/-- The one member with the role of owner is the owner of the room, of the type of the room's owner. -/
structure OneOwner (s : Store) : Prop where
  inRoom : ∀ k p m, s.seat k p = some m → s.ownerOf k ≠ none
  types : ∀ k p m, s.seat k p = some m → m.participantType = participantTypeFor p
  typed : ∀ k owner ownerType, s.ownerOf k = some (owner, ownerType) → ownerType = participantTypeFor owner
  seated : ∀ k owner ownerType, s.ownerOf k = some (owner, ownerType) → ∃ m, s.seat k owner = some m ∧ m.role = .owner
  only : ∀ k p m, s.seat k p = some m → m.role = .owner → ∃ ownerType, s.ownerOf k = some (p, ownerType)

/-- A commit changes the owner of no room that its call does not hold, and no room goes away. -/
def ownerRely : Rely Store RoomId where
  β _ := Option (Participant × ParticipantType)
  row k s := s.ownerOf k
  inv := OneOwner
  since s t := ∀ k, s.ownerOf k ≠ none → t.ownerOf k ≠ none
  commits _ _ := True
  trusted := True
  refl _ _ h := h
  trans _ _ _ hst htu k h := htu k (hst k h)

/-! ### Writes -/

section Writes

variable {s t u : Store} {held : RoomId → Prop} {member : RoomMember} {role : RoomRole} {k : RoomId} {p : Participant}

theorem key_of_seat {m : RoomMember} (h : s.seat k p = some m) : m.roomId = k ∧ m.agentId = p :=
  Prod.ext_iff.mp (Keyed.get?_eq_some_iff.mp h).2

theorem OneOwner.of_eq (h : OneOwner s) (howners : ∀ k, t.ownerOf k = s.ownerOf k) (hseats : ∀ k p, t.seat k p = s.seat k p) :
    OneOwner t := by
  refine ⟨fun k p m hm => ?_, fun k p m hm => ?_, fun k owner ownerType ho => ?_, fun k owner ownerType ho => ?_,
    fun k p m hm hrole => ?_⟩
  · rw [howners]
    exact h.inRoom k p m (hseats k p ▸ hm)
  · exact h.types k p m (hseats k p ▸ hm)
  · exact h.typed k owner ownerType (howners k ▸ ho)
  · rw [hseats]
    exact h.seated k owner ownerType (howners k ▸ ho)
  · rw [howners]
    exact h.only k p m (hseats k p ▸ hm) hrole

theorem commits_of_owners (h : OneOwner t) (howners : ∀ k, t.ownerOf k = s.ownerOf k) : ownerRely.Commits held s t :=
  ⟨h, fun k hk => howners k ▸ hk, fun k _ => howners k, trivial⟩

theorem OneOwner.insertMember (h : OneOwner s) (ht : s.insertMember member = some t) (hrole : member.role ≠ .owner)
    (htype : member.participantType = participantTypeFor member.agentId) : OneOwner t := by
  have hseat : ∀ k p, t.seat k p = if (k, p) = member.key then some { member with id := s.nextMember } else s.seat k p :=
    fun k p => seat_insertMember ht
  have hnew : s.seat member.roomId member.agentId = none := seat_eq_none_of_insertMember ht
  obtain ⟨members, hroom, -, rfl⟩ := insertMember_eq_some ht
  have hroom : s.ownerOf member.roomId ≠ none := fun hnone => hroom (Option.map_eq_none_iff.mp hnone)
  refine ⟨fun k p m hm => ?_, fun k p m hm => ?_, h.typed, fun k owner ownerType ho => ?_, fun k p m hm howner => ?_⟩
  · rw [hseat] at hm
    split at hm
    · rename_i hkey
      obtain ⟨rfl, -⟩ := Prod.ext_iff.mp hkey
      exact hroom
    · exact h.inRoom k p m hm
  · rw [hseat] at hm
    split at hm
    · rename_i hkey
      obtain ⟨-, rfl⟩ := Prod.ext_iff.mp hkey
      cases hm
      exact htype
    · exact h.types k p m hm
  · obtain ⟨m, hm, howner⟩ := h.seated k owner ownerType ho
    refine ⟨m, ?_, howner⟩
    rw [hseat, if_neg, hm]
    intro hkey
    obtain ⟨rfl, rfl⟩ := Prod.ext_iff.mp hkey
    exact nomatch hm.symm.trans hnew
  · rw [hseat] at hm
    split at hm
    · cases hm
      exact absurd howner hrole
    · exact h.only k p m hm howner

theorem OneOwner.deleteMember (h : OneOwner s) (hremovable : Removable member s) : OneOwner (s.deleteMember member) := by
  have hsome : ∀ {k p m}, (s.deleteMember member).seat k p = some m → s.seat k p = some m := by
    intro k p m hm
    rw [seat_deleteMember] at hm
    exact (Option.filter_eq_some_iff.mp hm).1
  refine ⟨fun k p m hm => h.inRoom k p m (hsome hm), fun k p m hm => h.types k p m (hsome hm), h.typed,
    fun k owner ownerType ho => ?_, fun k p m hm => h.only k p m (hsome hm)⟩
  obtain ⟨m, hm, howner⟩ := h.seated k owner ownerType ho
  refine ⟨m, ?_, howner⟩
  rw [seat_deleteMember, hm, Option.filter_some, if_pos]
  simp only [decide_eq_true_eq]
  rintro ⟨hkey, hid⟩
  obtain ⟨hroom, hagent⟩ := key_of_seat hm
  refine hremovable ⟨m, ?_, hid, howner⟩
  obtain ⟨hroom', hagent'⟩ := Prod.ext_iff.mp hkey
  have hroom' : m.roomId = member.roomId := hroom'
  have hagent' : m.agentId = member.agentId := hagent'
  rw [← hroom', ← hagent', hroom, hagent]
  exact hm

theorem OneOwner.setRole (h : OneOwner s) (ht : s.setRole member role = some t) (hrole : role ≠ .owner)
    (hremovable : member.role = role ∨ Removable member s) : OneOwner t ∧ ∀ k, t.ownerOf k = s.ownerOf k := by
  unfold Store.setRole at ht
  split at ht
  · cases ht
    exact ⟨h, fun _ => rfl⟩
  · rename_i hne
    have hremovable := hremovable.resolve_left hne
    obtain ⟨⟨m, hm, hid⟩, members, rfl, hseat⟩ := updateMember_eq_some ht
    refine ⟨⟨fun k p m' hm' => ?_, fun k p m' hm' => ?_, h.typed, fun k owner ownerType ho => ?_, fun k p m' hm' howner => ?_⟩,
      fun _ => rfl⟩
    · rw [hseat] at hm'
      split at hm'
      · obtain ⟨m₀, hm₀, -⟩ := Option.map_eq_some_iff.mp hm'
        exact h.inRoom k p m₀ hm₀
      · exact h.inRoom k p m' hm'
    · rw [hseat] at hm'
      split at hm'
      · obtain ⟨m₀, hm₀, rfl⟩ := Option.map_eq_some_iff.mp hm'
        exact h.types k p m₀ hm₀
      · exact h.types k p m' hm'
    · obtain ⟨m', hm', howner⟩ := h.seated k owner ownerType ho
      refine ⟨m', ?_, howner⟩
      rw [hseat, if_neg, hm']
      intro hkey
      obtain ⟨rfl, rfl⟩ := Prod.ext_iff.mp hkey
      cases hm.symm.trans hm'
      exact hremovable ⟨m, hm, hid, howner⟩
    · rw [hseat] at hm'
      split at hm'
      · obtain ⟨m₀, -, rfl⟩ := Option.map_eq_some_iff.mp hm'
        exact absurd howner hrole
      · exact h.only k p m' hm' howner

theorem ownerOf_putRoom {f : Room → Room} {j : RoomId} : (s.putRoom k f).ownerOf j =
    if j = k then (s.rooms j).map fun room => ((f room).ownerId, (f room).ownerType) else s.ownerOf j := by
  simp only [Store.ownerOf, Store.putRoom, Function.update_apply]
  by_cases hj : j = k
  · subst hj
    simp only [if_true, Option.map_map]
    rfl
  · simp only [hj, if_false]

theorem ownerOf_setOwner {loaded : Room} {owner : Participant} {j : RoomId} : (s.setOwner k loaded owner).ownerOf j =
    if j = k then (s.ownerOf j).map fun row => (if loaded.ownerId = owner then row.1 else owner,
      if loaded.ownerType = participantTypeFor owner then row.2 else participantTypeFor owner)
    else s.ownerOf j := by
  rw [Store.setOwner, ownerOf_putRoom]
  simp only [Store.ownerOf, Option.map_map]
  rfl

theorem OneOwner.handOver (h : OneOwner s) {owner : Participant}
    (howner : ∀ j, t.ownerOf j = if j = k then some (owner, participantTypeFor owner) else s.ownerOf j)
    (hother : ∀ j p, j ≠ k → t.seat j p = s.seat j p)
    (htypes : ∀ p m, t.seat k p = some m → m.participantType = participantTypeFor p)
    (hseated : ∃ m, t.seat k owner = some m ∧ m.role = .owner)
    (honly : ∀ p m, t.seat k p = some m → m.role = .owner → p = owner) : OneOwner t := by
  refine ⟨fun j p m hm => ?_, fun j p m hm => ?_, fun j o ty ho => ?_, fun j o ty ho => ?_, fun j p m hm hrole => ?_⟩
  · rw [howner]
    split
    · exact Option.some_ne_none _
    · rename_i hj
      rw [hother j p hj] at hm
      exact h.inRoom j p m hm
  · by_cases hj : j = k
    · subst hj
      exact htypes p m hm
    · rw [hother j p hj] at hm
      exact h.types j p m hm
  · rw [howner] at ho
    split at ho
    · cases ho
      rfl
    · exact h.typed j o ty ho
  · rw [howner] at ho
    split at ho
    · rename_i hj
      subst hj
      cases ho
      exact hseated
    · rename_i hj
      obtain ⟨m, hm, hrole⟩ := h.seated j o ty ho
      exact ⟨m, (hother j o hj).trans hm, hrole⟩
  · by_cases hj : j = k
    · subst hj
      obtain rfl := honly p m hm hrole
      exact ⟨_, (howner j).trans (if_pos rfl)⟩
    · rw [hother j p hj] at hm
      obtain ⟨ty, hty⟩ := h.only j p m hm hrole
      exact ⟨ty, (howner j).trans ((if_neg hj).trans hty)⟩

/-- A transfer between two rows of a room, of which the first or the second is the owner's. -/
theorem OneOwner.transfer (h : OneOwner s) {loaded : Room} {outgoing target : RoomMember} (hk : outgoing.roomId = k)
    (hk' : target.roomId = k) (hout : outgoing.role = .owner) (htarget : target.role ≠ .owner)
    (hne : outgoing.agentId ≠ target.agentId)
    (hcolumns : (s.setOwner k loaded target.agentId).ownerOf k = some (target.agentId, participantTypeFor target.agentId))
    (howner : ∀ owner ownerType, s.ownerOf k = some (owner, ownerType) → owner = outgoing.agentId ∨ owner = target.agentId)
    (ht : s.transfer k loaded outgoing target = some t) :
    OneOwner t ∧ ∀ j, t.ownerOf j = if j = k then some (target.agentId, participantTypeFor target.agentId) else s.ownerOf j := by
  have hkeys : outgoing.key ≠ target.key := fun heq => hne (Prod.ext_iff.mp heq).2
  unfold Store.transfer at ht
  dsimp only at ht
  rw [if_neg hkeys] at ht
  obtain ⟨v, hv, ht⟩ := Option.bind_eq_some_iff.mp ht
  unfold Store.setRole at hv ht
  rw [if_neg (by rw [hout]; decide)] at hv
  rw [if_neg htarget] at ht
  obtain ⟨-, members, rfl, hseat⟩ := updateMember_eq_some hv
  obtain ⟨⟨m, hm, -⟩, members', rfl, hseat'⟩ := updateMember_eq_some ht
  have howners : ∀ j, Store.ownerOf { s.setOwner k loaded target.agentId with members := members' } j =
      if j = k then some (target.agentId, participantTypeFor target.agentId) else s.ownerOf j := by
    intro j
    by_cases hj : j = k
    · subst hj
      rw [if_pos rfl]
      exact hcolumns
    · rw [if_neg hj]
      exact ownerOf_setOwner.trans (if_neg hj)
  -- The seats after both updates, over the seats before.
  have hseats : ∀ j p, Store.seat { s.setOwner k loaded target.agentId with members := members' } j p =
      if (j, p) = target.key then (s.seat j p).map fun m => { m with role := .owner }
      else if (j, p) = outgoing.key then (s.seat j p).map fun m => { m with role := .member } else s.seat j p := by
    intro j p
    rw [hseat', hseat]
    by_cases hp : (j, p) = target.key
    · rw [if_pos hp, if_pos hp, if_neg fun hq => hkeys (hq.symm.trans hp)]
      rfl
    · rw [if_neg hp, if_neg hp]
      rfl
  have hkey : ∀ {member : RoomMember} {j p}, member.roomId = k → (j, p) = member.key → j = k ∧ p = member.agentId := by
    rintro member j p hroom heq
    obtain ⟨rfl, rfl⟩ := Prod.ext_iff.mp heq
    exact ⟨hroom, rfl⟩
  refine ⟨h.handOver howners (fun j p hj => ?_) (fun p m hm => ?_) ?_ fun p m hm hrole => ?_, howners⟩
  · rw [hseats, if_neg fun heq => hj (hkey hk' heq).1, if_neg fun heq => hj (hkey hk heq).1]
  · rw [hseats] at hm
    split at hm
    · obtain ⟨m₀, hm₀, rfl⟩ := Option.map_eq_some_iff.mp hm
      exact h.types k p m₀ hm₀
    · split at hm
      · obtain ⟨m₀, hm₀, rfl⟩ := Option.map_eq_some_iff.mp hm
        exact h.types k p m₀ hm₀
      · exact h.types k p m hm
  · rw [hseat, if_neg fun heq => hkeys heq.symm] at hm
    have hm : s.seat k target.agentId = some m := hk' ▸ hm
    refine ⟨{ m with role := .owner }, ?_, rfl⟩
    rw [hseats, if_pos (by rw [← hk']; rfl), hm]
    rfl
  · rw [hseats] at hm
    split at hm
    · rename_i heq
      exact (hkey hk' heq).2
    · split at hm
      · obtain ⟨m₀, -, rfl⟩ := Option.map_eq_some_iff.mp hm
        cases hrole
      · rename_i hnot
        obtain ⟨ownerType, ho⟩ := h.only k p m hm hrole
        refine (howner p ownerType ho).resolve_left fun heq => hnot ?_
        rw [heq, ← hk]
        rfl

theorem OneOwner.insertOwner (h : OneOwner s) {room : Room} (hnew : s.rooms k = none)
    (htype : room.ownerType = participantTypeFor room.ownerId)
    (ht : Store.insertMember { s with rooms := Function.update s.rooms k (some room) }
      { id := 0, roomId := k, agentId := room.ownerId, participantType := room.ownerType, role := .owner } = some t) :
    OneOwner t ∧ ∀ j, j ≠ k → t.ownerOf j = s.ownerOf j := by
  have hseat : ∀ j p, t.seat j p = if (j, p) = (k, room.ownerId) then some _ else s.seat j p := fun j p => seat_insertMember ht
  obtain ⟨members, -, -, rfl⟩ := insertMember_eq_some ht
  have hempty : ∀ p, s.seat k p = none := by
    intro p
    by_contra hne
    obtain ⟨m, hm⟩ := Option.ne_none_iff_exists'.mp hne
    exact h.inRoom k p m hm (Option.map_eq_none_iff.mpr hnew)
  have howner : ∀ j, Store.ownerOf { s with
      rooms := Function.update s.rooms k (some room)
      members
      nextMember := s.nextMember + 1
      entered := Function.update s.entered k (s.entered k + 1) } j =
      if j = k then some (room.ownerId, participantTypeFor room.ownerId) else s.ownerOf j := by
    intro j
    simp only [Store.ownerOf, Function.update_apply]
    split
    · rw [← htype]
      rfl
    · rfl
  refine ⟨h.handOver howner (fun j p hj => ?_) (fun p m hm => ?_) ⟨_, (hseat k room.ownerId).trans (if_pos rfl), rfl⟩
    fun p m hm _ => ?_, fun j hj => (howner j).trans (if_neg hj)⟩
  · rw [hseat, if_neg fun heq => hj (Prod.ext_iff.mp heq).1]
  · rw [hseat] at hm
    split at hm
    · rename_i heq
      cases hm
      cases heq
      exact htype
    · exact h.types k p m hm
  · rw [hseat] at hm
    split at hm
    · rename_i heq
      exact (Prod.ext_iff.mp heq).2
    · exact nomatch (hempty p).symm.trans hm

theorem OneOwner.insertMembers {rows : List RoomMember} (h : OneOwner s)
    (hrows : ∀ row ∈ rows, row.role ≠ .owner ∧ row.participantType = participantTypeFor row.agentId)
    (ht : rows.foldlM (fun s row => s.insertMember row) s = some t) : OneOwner t ∧ ∀ j, t.ownerOf j = s.ownerOf j := by
  induction rows generalizing s with
  | nil =>
    cases ht
    exact ⟨h, fun _ => rfl⟩
  | cons row rest ih =>
    rw [List.foldlM_cons] at ht
    obtain ⟨u, hu, ht⟩ := Option.bind_eq_some_iff.mp ht
    obtain ⟨hrole, htype⟩ := hrows row List.mem_cons_self
    have howner : ∀ j, u.ownerOf j = s.ownerOf j := by
      obtain ⟨members, -, -, rfl⟩ := insertMember_eq_some hu
      exact fun _ => rfl
    obtain ⟨hinv, hrest⟩ := ih (h.insertMember hu hrole htype) (fun row hrow => hrows row (List.mem_cons_of_mem _ hrow)) ht
    exact ⟨hinv, fun j => (hrest j).trans (howner j)⟩

theorem OneOwner.insertRoom (h : OneOwner s) {room : Room} {members : List Participant}
    (htype : room.ownerType = participantTypeFor room.ownerId) (ht : insertRoom k room members s = some t) :
    OneOwner t ∧ ∀ j, j ≠ k → t.ownerOf j = s.ownerOf j := by
  obtain ⟨hnew, ht⟩ := Option.ite_none_right_eq_some.mp ht
  rw [List.foldlM_cons] at ht
  obtain ⟨u, hu, ht⟩ := Option.bind_eq_some_iff.mp ht
  obtain ⟨hinv, howners⟩ := h.insertOwner hnew htype hu
  obtain ⟨hinv, hrest⟩ := hinv.insertMembers (fun row hrow => by
    obtain ⟨p, -, rfl⟩ := List.mem_map.mp hrow
    exact ⟨fun howner => (nomatch howner), rfl⟩) ht
  exact ⟨hinv, fun j hj => (hrest j).trans (howners j hj)⟩

end Writes

/-! ### The calls -/

section Outlines

variable {held : RoomId → Prop} (s : Store)

theorem queuesApprovals_owner : QueuesApprovals ownerRely := fun _ _ _ h =>
  commits_of_owners (h.of_eq (fun _ => rfl) fun _ _ => rfl) fun _ => rfl

variable {asRead : EntryRead → Store → Bool}

theorem inserts_owner {read : EntryRead} {role : RoomRole} {canInvite : Option Bool}
    (hrole : role ≠ .owner) : Inserts ownerRely asRead read (read.row role canInvite) held s := by
  intro held' w t u _ _ _ hinv _ hu
  refine commits_of_owners (hinv.insertMember hu hrole rfl) fun k => ?_
  obtain ⟨members, -, -, rfl⟩ := insertMember_eq_some hu
  rfl

theorem insertsChecked_owner : InsertsChecked ownerRely asRead :=
  fun _ s _ _ _ hrole _ => inserts_owner s hrole

theorem insertsLocked_owner : InsertsLocked ownerRely asRead :=
  fun _ _ _ s _ _ _ _ _ _ _ _ hrole _ => inserts_owner s hrole

theorem approvesInvites_owner : ApprovesInvites ownerRely asRead := by
  intro id approval read _ _ _ held w t _ _ hinv _
  unfold approveRoomInvite
  dsimp only
  cases hu : t.insertMember { id := 0, roomId := approval.roomId, agentId := .agent approval.agentId, canInvite := approval.canInvite } with
  | none => exact commits_of_owners (hinv.of_eq (fun _ => rfl) fun _ _ => rfl) fun _ => rfl
  | some u =>
    have hinv' : OneOwner u := hinv.insertMember hu (fun h => nomatch h) rfl
    obtain ⟨members, -, -, rfl⟩ := insertMember_eq_some hu
    exact commits_of_owners (hinv'.of_eq (fun _ => rfl) fun _ _ => rfl) fun _ => rfl

variable {agentId : AgentId}

theorem recordRedemption_owner {code : String} {invite : Invite} {connect : Store → Option Store} {t v : Store}
    (hconnect : ∀ u, connect t = some u → OneOwner u ∧ ∀ k, u.ownerOf k = t.ownerOf k)
    (hv : recordRedemption code agentId invite connect t = some v) : ownerRely.Commits held t v := by
  obtain ⟨u, redemptions, hu, -, rfl⟩ := recordRedemption_eq_some hv
  obtain ⟨hinv, howners⟩ := hconnect u hu
  exact commits_of_owners (hinv.of_eq (fun _ => rfl) fun _ _ => rfl) howners

theorem sound_redeem_owner {code : String} {asRead : String → AgentId → Read → Store → Bool} :
    (redeemInviteForAgent asRead code agentId).Sound ownerRely held s := by
  refine sound_redeemInviteForAgent (fun t hinv => commits_of_owners hinv fun _ => rfl) ?_ ?_
  · intro s₀ t _ invite _ _ _ hinv _ _
    refine recordRedemption_owner fun u hu => ?_
    obtain ⟨v, hv, hu⟩ := Option.bind_eq_some_iff.mp hu
    obtain ⟨-, hv⟩ := Option.ite_none_right_eq_some.mp hv
    obtain ⟨-, hu⟩ := Option.ite_none_right_eq_some.mp hu
    cases hv
    cases hu
    exact ⟨OneOwner.of_eq hinv (fun _ => rfl) fun _ _ => rfl, fun _ => rfl⟩
  · intro held' s₀ w t _ invite roomId room seats _ _ _ _ _ hinv _ _ _
    refine recordRedemption_owner fun u hu => ⟨OneOwner.insertMember hinv hu (fun h => nomatch h) rfl, fun k => ?_⟩
    obtain ⟨members, -, -, rfl⟩ := insertMember_eq_some hu
    rfl

variable {roomId : RoomId}

theorem sound_leaveRoom_owner :
    (Personal.leaveRoom (fun member s => decide (Removable member s)) roomId agentId).Sound ownerRely held s := by
  refine sound_loadRoomWithMembers fun t u room _ _ _ _ _ => sound_requireMembership fun member _ _ _ => .require fun _ => ?_
  refine .commit fun v _ hinv hread w hw => ?_
  cases hw
  exact commits_of_owners (OneOwner.deleteMember hinv (of_decide_eq_true (hread trivial))) fun _ => rfl

variable {participant : Participant} {currentAgent : AgentId}

theorem sound_removeMember :
    (Personal.removeMember roomId currentAgent participant).Sound ownerRely held s := by
  refine sound_loadRoomWithMembers fun t u room _ _ _ _ _ => sound_requireMembership fun caller _ _ _ => .require fun _ => ?_
  split
  · trivial
  · refine .require fun _ => .require fun _ => .commit fun v _ hinv hread w hw => ?_
    cases hw
    exact commits_of_owners (OneOwner.deleteMember hinv (of_decide_eq_true (hread trivial))) fun _ => rfl

theorem bodyRole_ne_owner (admin : Bool) : bodyRole admin ≠ .owner := by
  cases admin <;> decide

theorem sound_promoteDemote {admin : Bool} :
    (promoteDemote roomId currentAgent participant admin).Sound ownerRely held s := by
  refine sound_loadRoomWithMembers fun t u room _ _ _ _ _ => sound_requireMembership fun caller _ _ _ => .require fun _ => ?_
  split
  · trivial
  · refine .require fun _ => .commit fun v _ hinv hread w hw => ?_
    obtain ⟨hinv', howners⟩ := OneOwner.setRole hinv hw (bodyRole_ne_owner admin) (of_decide_eq_true (hread trivial))
    exact commits_of_owners hinv' howners

variable {room : Room} {t u : Store}

theorem ownerOf_of_later (hheld : held roomId) (hroom : t.rooms roomId = some room)
    (hlater : ownerRely.Later held t u) : u.ownerOf roomId = some (room.ownerId, room.ownerType) := by
  have hrow : t.ownerOf roomId = some (room.ownerId, room.ownerType) := by
    rw [Store.ownerOf, hroom]
    rfl
  exact (hlater.rows roomId hheld).trans hrow

/-- Under the lock of the room, a member that was found without the role of owner does not get it. -/
theorem removable_of_locked {t u v : Store} {target : RoomMember}
    (hheld : held roomId) (hroom : t.rooms roomId = some room) (hu : ownerRely.Later held t u) (hinv : OneOwner u)
    (hv : ownerRely.Later held u v) (hinv' : OneOwner v) (htarget : u.seat roomId participant = some target)
    (hrole : target.role ≠ .owner) : Removable target v := by
  rintro ⟨m, hm, -, howner⟩
  obtain ⟨hroomId, hagent⟩ := key_of_seat htarget
  rw [hroomId, hagent] at hm
  obtain ⟨ownerType, ho⟩ := hinv'.only roomId participant m hm howner
  rw [ownerOf_of_later hheld hroom (hu.trans hv)] at ho
  cases ho
  obtain ⟨m', hm', howner'⟩ := hinv.seated roomId room.ownerId room.ownerType (ownerOf_of_later hheld hroom hu)
  cases htarget.symm.trans hm'
  exact hrole howner'

variable {userId : UserId}

theorem sound_promoteMemberAsHuman {admin : Bool} :
    (promoteMemberAsHuman roomId userId participant admin).Sound ownerRely held s := by
  refine sound_loadRoomMemberAsCaller fun t u room caller hroom hu _ _ => sound_effectiveHumanRoomRole fun v role hv _ =>
    .require fun _ => sound_loadMember fun w hw hinv => sound_ofOwnType fun target htarget => .require fun hrole => ?_
  refine .commit fun x hx hinv' _ y hy => ?_
  have hremovable := removable_of_locked (.inr rfl) hroom ((hu.trans hv).trans hw) hinv hx hinv' htarget hrole
  obtain ⟨hinv'', howners⟩ := OneOwner.setRole hinv' hy (bodyRole_ne_owner admin) (.inr hremovable)
  exact commits_of_owners hinv'' howners

theorem sound_removeMemberAsHuman :
    (removeMemberAsHuman roomId userId participant).Sound ownerRely held s := by
  refine sound_loadRoomMemberAsCaller fun t u room caller hroom hu _ _ => sound_effectiveHumanRoomRole fun v role hv _ =>
    .require fun _ => sound_loadMember fun w hw hinv => sound_ofOwnType fun target htarget => .require fun hrole =>
      .require fun _ => ?_
  refine .commit fun x hx hinv' _ y hy => ?_
  cases hy
  exact commits_of_owners (OneOwner.deleteMember hinv'
    (removable_of_locked (.inr rfl) hroom ((hu.trans hv).trans hw) hinv hx hinv' htarget hrole)) fun _ => rfl

theorem sound_commitRoom {members : List Participant}
    (htype : room.ownerType = participantTypeFor room.ownerId) : (commitRoom roomId room members).Sound ownerRely held s := by
  refine .lock (fun _ _ _ hnone => nomatch hnone) fun t k _ _ hk => ?_
  cases hk
  refine .commit fun u _ hinv _ v hv => ?_
  obtain ⟨hinv', howners⟩ := OneOwner.insertRoom hinv htype hv
  refine ⟨hinv', fun j hj hnone => ?_, fun j hj => howners j fun heq => hj (.inr heq), trivial⟩
  by_cases heq : j = roomId
  · subst heq
    obtain ⟨hnew, -⟩ := Option.ite_none_right_eq_some.mp hv
    exact hj (Option.map_eq_none_iff.mpr hnew)
  · rw [howners j heq] at hnone
    exact hj hnone

theorem commits_transfer {owner : Participant} {ownerType : ParticipantType} (hinv : OneOwner u)
    (howners : ∀ j, u.ownerOf j = if j = roomId then some (owner, ownerType) else t.ownerOf j)
    (hheld : held roomId ∨ t.ownerOf roomId = some (owner, ownerType)) : ownerRely.Commits held t u := by
  refine ⟨hinv, fun j hj => ?_, fun j hj => ?_, trivial⟩
  · rw [howners]
    split
    · exact Option.some_ne_none _
    · exact hj
  · by_cases heq : j = roomId
    · subst heq
      exact (howners j).trans ((if_pos rfl).trans (hheld.resolve_left hj).symm)
    · exact (howners j).trans (if_neg heq)

theorem seat_of_mem {member : RoomMember} (h : member ∈ s.members.rows.filter (·.roomId = roomId)) :
    s.seat roomId member.agentId = some member ∧ member.roomId = roomId := by
  obtain ⟨hmem, hroom⟩ := List.mem_filter.mp h
  have hroom : member.roomId = roomId := of_decide_eq_true hroom
  exact ⟨Keyed.get?_eq_some_iff.mpr ⟨hmem, by rw [← hroom]; rfl⟩, hroom⟩

theorem role_ne_owner {k : RoomId} {a b : Participant} {m m' : RoomMember} (h : OneOwner s) (hm : s.seat k a = some m)
    (hrole : m.role = .owner) (hm' : s.seat k b = some m') (hne : a ≠ b) : m'.role ≠ .owner := by
  intro hrole'
  obtain ⟨ownerType, ho⟩ := h.only k a m hm hrole
  obtain ⟨ownerType', ho'⟩ := h.only k b m' hm' hrole'
  rw [ho] at ho'
  cases ho'
  exact hne rfl

variable {outgoing target : RoomMember}

theorem seatThere_of_transfer {loaded : Room}
    (hout : outgoing.role = .owner) (htarget : target.role ≠ .owner) (hne : outgoing.agentId ≠ target.agentId)
    (ht : t.transfer roomId loaded outgoing target = some u) : t.SeatThere outgoing ∧ t.SeatThere target := by
  have hkeys : outgoing.key ≠ target.key := fun heq => hne (Prod.ext_iff.mp heq).2
  unfold Store.transfer Store.setRole at ht
  dsimp only at ht
  rw [if_neg hkeys, if_neg (by rw [hout]; decide)] at ht
  obtain ⟨v, hv, ht⟩ := Option.bind_eq_some_iff.mp ht
  rw [if_neg htarget] at ht
  obtain ⟨hfirst, members, rfl, hseat⟩ := updateMember_eq_some hv
  obtain ⟨⟨m, hm, hid⟩, -⟩ := updateMember_eq_some ht
  rw [hseat, if_neg fun heq => hkeys heq.symm] at hm
  exact ⟨hfirst, m, hm, hid⟩

theorem commits_transferOwnership {loaded : Room}
    (hinv : OneOwner t) (hk : outgoing.roomId = roomId) (hk' : target.roomId = roomId)
    (hagent : outgoing.agentId = .agent currentAgent) (hout : outgoing.role = .owner) (htarget : target.role ≠ .owner)
    (hne : outgoing.agentId ≠ target.agentId) (hread : Transferable roomId currentAgent loaded outgoing target t)
    (hheld : held roomId ∨ loaded.ownerId = target.agentId ∧ loaded.ownerType = participantTypeFor target.agentId)
    (ht : t.transfer roomId loaded outgoing target = some u) : ownerRely.Commits held t u := by
  obtain ⟨hfirst, hsecond⟩ := seatThere_of_transfer hout htarget hne ht
  have hroom : t.rooms roomId ≠ none := by
    obtain ⟨m, hm, -⟩ := hfirst
    exact fun hnone => hinv.inRoom roomId outgoing.agentId m (hk ▸ hm) (Option.map_eq_none_iff.mpr hnone)
  obtain ⟨row, hrow⟩ := Option.ne_none_iff_exists'.mp hroom
  have howner : t.ownerOf roomId = some (row.ownerId, row.ownerType) := by
    rw [Store.ownerOf, hrow]
    rfl
  have htyped := hinv.typed roomId _ _ howner
  have hcases := hread row hrow hfirst hsecond
  have hcolumns : (t.setOwner roomId loaded target.agentId).ownerOf roomId =
      some (target.agentId, participantTypeFor target.agentId) := by
    rw [ownerOf_setOwner, if_pos rfl, howner, Option.map_some]
    rcases hcases with hnew | ⟨-, hloaded, htype⟩
    · rw [htyped, hnew, ite_self, ite_self]
    · rw [if_neg hloaded]
      rcases htype with htype | htype
      · rw [if_neg htype]
      · rw [htype, ite_self]
  obtain ⟨hinv', howners⟩ := OneOwner.transfer hinv hk hk' hout htarget hne hcolumns (fun owner ownerType ho => by
    rw [howner] at ho
    cases ho
    exact hcases.elim .inr fun h => .inl (h.1.trans hagent.symm)) ht
  refine commits_transfer hinv' howners (hheld.imp_right fun hsame => ?_)
  rw [← hcolumns, ownerOf_setOwner, if_pos rfl, howner, Option.map_some, if_pos hsame.1, if_pos hsame.2]

theorem sound_transferOwnership {newOwner : Participant} {ownsProduct : Bool} :
    (transferOwnership (fun room outgoing target s => Transferable roomId currentAgent room outgoing target s) roomId currentAgent
      newOwner ownsProduct).Sound ownerRely held s := by
  refine sound_loadRoomWithMembers fun t u room _ _ hroom hu hinv => sound_requireMembership fun caller hcaller hagent _ =>
    .require fun hout => .require fun hne => ?_
  split
  · trivial
  · rename_i target htarget
    obtain ⟨hmem, rfl⟩ := findRoomMember_eq_some htarget
    obtain ⟨hseat, hk⟩ := seat_of_mem u hcaller
    obtain ⟨hseat', hk'⟩ := seat_of_mem u hmem
    have hne : caller.agentId ≠ target.agentId := fun heq => hne (heq.symm.trans hagent)
    have hrole := role_ne_owner u hinv hseat hout hseat' hne
    have hthere : u.ownerOf roomId ≠ none := hinv.inRoom roomId _ caller hseat
    refine .require fun _ => ?_
    dsimp only
    split
    · rename_i hsame
      refine .commit fun v _ hinv hread w hw => ?_
      exact commits_transferOwnership hinv hk hk' hagent hout hrole hne (of_decide_eq_true (hread trivial)) (.inr hsame) hw
    · refine sound_waitForRoom (fun v hv _ hnone => absurd (Option.map_eq_none_iff.mpr hnone) (hv.since roomId hthere)) fun v _ _ => ?_
      refine .commit fun w _ hinv hread x hx => ?_
      exact commits_transferOwnership hinv hk hk' hagent hout hrole hne (of_decide_eq_true (hread trivial)) (.inl (.inr rfl)) hx

/-- The commit of a human's transfer: the room is locked, and the outgoing owner and the target were both read under the lock. -/
theorem commits_transferAsHuman {t t' u v : Store}
    (hheld : held roomId) (hinv : OneOwner t) (hout : t.seat roomId room.ownerId = some outgoing)
    (howner : t.ownerOf roomId = some (room.ownerId, room.ownerType)) (hinv' : OneOwner t')
    (htarget : t'.seat roomId target.agentId = some target) (howner' : t'.ownerOf roomId = some (room.ownerId, room.ownerType))
    (hinvNow : OneOwner u) (hownerNow : u.ownerOf roomId = some (room.ownerId, room.ownerType))
    (hu : u.transfer roomId room outgoing target = some v) : ownerRely.Commits held u v := by
  obtain ⟨hk, hagent⟩ := key_of_seat hout
  obtain ⟨hk', -⟩ := key_of_seat htarget
  have hout : outgoing.role = .owner := by
    obtain ⟨m, hm, hrole⟩ := hinv.seated roomId _ _ howner
    cases hout.symm.trans hm
    exact hrole
  have htyped : room.ownerType = participantTypeFor room.ownerId := hinv.typed roomId _ _ howner
  by_cases hsame : room.ownerId = target.agentId
  · -- The target owns the room already: nothing differs from what was loaded.
    have hrole : target.role = .owner := by
      obtain ⟨m, hm, hrole⟩ := hinv'.seated roomId _ _ howner'
      rw [hsame] at hm
      cases htarget.symm.trans hm
      exact hrole
    have hkeys : outgoing.key = target.key := Prod.ext (hk.trans hk'.symm) (hagent.trans hsame)
    unfold Store.transfer Store.setRole at hu
    dsimp only at hu
    rw [if_pos hkeys, if_pos hrole] at hu
    cases hu
    have howners : ∀ j, (u.setOwner roomId room target.agentId).ownerOf j = u.ownerOf j := by
      intro j
      have htype : room.ownerType = participantTypeFor target.agentId := htyped.trans (congrArg _ hsame)
      rw [ownerOf_setOwner]
      simp only [hsame, htype, if_true, Option.map_id', ite_self]
    exact commits_of_owners (hinvNow.of_eq howners fun _ _ => rfl) howners
  · have hrole : target.role ≠ .owner := by
      intro hrole
      obtain ⟨ownerType, ho⟩ := hinv'.only roomId _ target htarget hrole
      exact hsame (Prod.ext_iff.mp (Option.some.inj (howner'.symm.trans ho))).1
    have hcolumns : (u.setOwner roomId room target.agentId).ownerOf roomId =
        some (target.agentId, participantTypeFor target.agentId) := by
      rw [ownerOf_setOwner, if_pos rfl, hownerNow, Option.map_some, if_neg hsame]
      split
      · rename_i htype
        rw [htype]
      · rfl
    obtain ⟨hinvAfter, howners⟩ := hinvNow.transfer hk hk' hout hrole (fun heq => hsame (hagent.symm.trans heq)) hcolumns
      (fun o ty ho => by
        rw [hownerNow] at ho
        cases ho
        exact .inl hagent.symm) hu
    exact commits_transfer hinvAfter howners (.inl hheld)

theorem sound_transferRoomOwnershipAsHuman {newOwner : Participant} :
    (transferRoomOwnershipAsHuman roomId userId newOwner).Sound ownerRely held s := by
  refine sound_loadRoomMemberAsCaller fun t u room caller hroom hu hinv hcaller => sound_effectiveHumanRoomRole fun v role hv _ =>
    .require fun _ => .require fun _ => sound_loadMember fun w hw hinv' => sound_ofOwnType fun target htarget => ?_
  have hnow : ∀ {x}, ownerRely.Later (fun x => held x ∨ x = roomId) t x → x.ownerOf roomId = some (room.ownerId, room.ownerType) :=
    fun hx => ownerOf_of_later (.inr rfl) hroom hx
  have htw := (hu.trans hv).trans hw
  obtain ⟨-, hnew⟩ := key_of_seat htarget
  have hcommit : ∀ {x outgoing}, ownerRely.Later (fun x => held x ∨ x = roomId) w x → (∃ y, ownerRely.Later (fun x => held x ∨ x = roomId) t y ∧
      OneOwner y ∧ y.seat roomId room.ownerId = some outgoing) → (Program.commit (fun _ => true) fun s =>
        s.transfer roomId room outgoing target : Call).Sound ownerRely (fun x => held x ∨ x = roomId) x := by
    rintro x outgoing hx ⟨y, hy, hinvy, hout⟩
    refine .commit fun z hz hinvz _ a ha => ?_
    exact commits_transferAsHuman (.inr rfl) hinvy hout (hnow hy) hinv' (hnew ▸ htarget) (hnow htw) hinvz
      (hnow ((htw.trans hx).trans hz)) ha
  have hsubscribed : ∀ {x}, ownerRely.Later (fun x => held x ∨ x = roomId) w x → ((if room.ownerId ≠ caller.agentId then
      loadMember roomId room.ownerId fun current => .commit (fun _ => true) fun s => s.transfer roomId room (current.getD caller) target
      else .commit (fun _ => true) fun s => s.transfer roomId room caller target : Call)).Sound ownerRely
        (fun x => held x ∨ x = roomId) x := by
    intro x hx
    split
    · refine sound_loadMember fun y hy hinvy => ?_
      obtain ⟨m, hm, -⟩ := OneOwner.seated hinvy roomId _ _ (hnow ((htw.trans hx).trans hy))
      rw [hm]
      exact hcommit (hx.trans hy) ⟨y, (htw.trans hx).trans hy, hinvy, hm⟩
    · rename_i hcallerOwner
      have howns : room.ownerId = caller.agentId := not_not.mp hcallerOwner
      obtain ⟨-, hagent⟩ := key_of_seat hcaller
      refine hcommit hx ⟨u, hu, hinv, ?_⟩
      rw [howns, hagent]
      exact hcaller
  dsimp only
  split
  · exact .select fun x hx _ => .require fun _ => hsubscribed hx
  · exact hsubscribed .refl

theorem sound_createRoom {settings : Room} {memberIds : List Participant}
    {admitted : Bool} : (Personal.createRoom roomId currentAgent settings memberIds admitted).Sound ownerRely held s :=
  .select fun _ _ _ => .require fun _ => .require fun _ => .require fun _ => sound_commitRoom _ rfl

theorem sound_createHumanRoom {settings : Room} {memberIds : List Participant} :
    (Personal.createHumanRoom roomId userId settings memberIds).Sound ownerRely held s :=
  .require fun _ => .select fun _ _ _ => .require fun _ => sound_commitRoom _ rfl

theorem sound_ownerProgram (request : OwnerRequest) : (request.program s).Sound ownerRely held s := by
  cases request with
  | createRoom roomId currentAgent settings memberIds admitted => exact sound_createRoom s
  | createHumanRoom roomId userId settings memberIds => exact sound_createHumanRoom s
  | transferOwnership roomId currentAgent newOwner ownsProduct => exact sound_transferOwnership s
  | transferRoomOwnershipAsHuman roomId userId newOwner => exact sound_transferRoomOwnershipAsHuman s
  | promoteDemote roomId currentAgent participant admin => exact sound_promoteDemote s
  | promoteMemberAsHuman roomId userId participant admin => exact sound_promoteMemberAsHuman s
  | removeMember roomId currentAgent participant => exact sound_removeMember s
  | removeMemberAsHuman roomId userId participant => exact sound_removeMemberAsHuman s
  | leaveRoom roomId agentId => exact sound_leaveRoom_owner s
  | addMember roomId currentAgent target canInvite admitted approvalId =>
    exact sound_addMember queuesApprovals_owner insertsChecked_owner
  | joinRoomAsHuman roomId userId => exact sound_joinRoomAsHuman insertsLocked_owner
  | inviteRoomMemberAsHuman roomId userId participant role admitted approvalId =>
    exact sound_inviteRoomMemberAsHuman queuesApprovals_owner insertsLocked_owner
  | resolveRoomInvite approvalId userId approve =>
    change (Personal.resolveRoomInvite (fun _ _ => true) approvalId userId approve).Sound ownerRely held s
    exact sound_resolveRoomInvite queuesApprovals_owner approvesInvites_owner
  | redeemInviteForAgent code agentId =>
    change (Personal.redeemInviteForAgent (fun _ _ _ _ => true) code agentId).Sound ownerRely held s
    exact sound_redeem_owner s

variable {s}

theorem ownerEvent_kept (event : OwnerEvent) (h : OneOwner s) :
    OneOwner (event.apply s) ∧ ∀ k, (event.apply s).ownerOf k = s.ownerOf k := by
  have howners : ∀ k, (event.apply s).ownerOf k = s.ownerOf k := by
    intro k
    cases event with
    | settings roomId row =>
      refine ownerOf_putRoom.trans ?_
      rw [Store.ownerOf, ite_self]
    | _ => rfl
  refine ⟨h.of_eq howners fun k p => ?_, howners⟩
  cases event <;> rfl

end Outlines

section Runs

variable {start : Store} {d : Calls Store RoomId}

theorem kept_owner (hstart : OneOwner start) {actions : List (CallAction OwnerRequest OwnerEvent)}
    (hmeets : rooms.Meets Calls.AsRead { committed := start } actions)
    (hrun : rooms.run { committed := start } actions = some d) : Calls.Kept ownerRely d :=
  rooms.run_invariant_of_meets
    (fun _ _ _ hkept hread hstep => (Calls.Kept.step (fun request s _ => sound_ownerProgram s request)
      (fun event _ hinv => ⟨(ownerEvent_kept event hinv).1, fun _ => ⟨fun k _ => (ownerEvent_kept event hinv).2 k,
        fun k hk => ((ownerEvent_kept event hinv).2 k).trans_ne hk⟩⟩) hkept (fun _ => hread) hstep).1)
    (.start hstart) hmeets hrun

/-- In every run from tables without rooms in which an agent's transfer commits over the owner that it has read, and an agent takes no role and no row from who has become the owner: a room has one member with the role of owner, it is who the room says, and of the type that the room says. -/
theorem one_owner_in_every_room (hrooms : ∀ roomId, start.rooms roomId = none) (hmembers : ∀ m, m ∉ start.members)
    {actions : List (CallAction OwnerRequest OwnerEvent)} (hmeets : rooms.Meets Calls.AsRead { committed := start } actions)
    (hrun : rooms.run { committed := start } actions = some d) (roomId : RoomId) (room : Room)
    (hroom : d.committed.rooms roomId = some room) :
    ∃ owner ∈ d.committed.members, owner.roomId = roomId ∧ owner.agentId = room.ownerId ∧
      owner.participantType = room.ownerType ∧ owner.role = .owner ∧
      ∀ m ∈ d.committed.members, m.roomId = roomId → m.role = .owner → m = owner := by
  have hnone : ∀ k, start.ownerOf k = none := fun k => Option.map_eq_none_iff.mpr (hrooms k)
  have hempty : ∀ k p m, start.seat k p ≠ some m := fun k p m hm => hmembers m (Keyed.get?_eq_some_iff.mp hm).1
  have hinv := (kept_owner ⟨fun k p m hm => absurd hm (hempty k p m), fun k p m hm => absurd hm (hempty k p m),
    fun k _ _ ho => (nomatch (hnone k).symm.trans ho), fun k _ _ ho => (nomatch (hnone k).symm.trans ho),
    fun k p m hm => absurd hm (hempty k p m)⟩ hmeets hrun).inv
  have ho : d.committed.ownerOf roomId = some (room.ownerId, room.ownerType) := by
    rw [Store.ownerOf, hroom]
    rfl
  obtain ⟨owner, hseat, hrole⟩ := OneOwner.seated hinv roomId _ _ ho
  obtain ⟨hmem, hkey⟩ := Keyed.get?_eq_some_iff.mp hseat
  obtain ⟨hk, hagent⟩ := Prod.ext_iff.mp hkey
  have htype := (OneOwner.types hinv roomId _ owner hseat).trans (OneOwner.typed hinv roomId _ _ ho).symm
  refine ⟨owner, hmem, hk, hagent, htype, hrole, fun m hm hroomId hrole' => ?_⟩
  have hm' : d.committed.seat roomId m.agentId = some m := Keyed.get?_eq_some_iff.mpr ⟨hm, by rw [← hroomId]; rfl⟩
  obtain ⟨ownerType, ho'⟩ := OneOwner.only hinv roomId m.agentId m hm' hrole'
  have hsame : room.ownerId = m.agentId := (Prod.ext_iff.mp (Option.some.inj (ho.symm.trans ho'))).1
  rw [← hsame, hseat] at hm'
  exact (Option.some.inj hm').symm

/-- Agent 0 makes a room with agents 1 and 2 and hands it to both; both calls have loaded the room before one commits. -/
def transfersAtOnce : List (CallAction OwnerRequest OwnerEvent) :=
  [.outside (.agent "ag_1" (some none)), .outside (.agent "ag_2" (some none)),
    .call 1 (.createRoom "rm_a" "ag_0" { ownerId := .agent "ag_0" } [.agent "ag_1", .agent "ag_2"] true), .next 1, .next 1, .next 1,
    .call 2 (.transferOwnership "rm_a" "ag_0" (.agent "ag_1") false), .next 2, .next 2,
    .call 3 (.transferOwnership "rm_a" "ag_0" (.agent "ag_2") false), .next 3, .next 3, .next 2, .next 2, .next 3, .next 3]

theorem transfers_at_once_two_owners : ∃ d room, rooms.run { committed := {} } transfersAtOnce = some d ∧
    d.committed.rooms "rm_a" = some room ∧ room.ownerId = .agent "ag_2" ∧
    (∃ m ∈ d.committed.members, m.roomId = "rm_a" ∧ m.agentId = .agent "ag_1" ∧ m.role = .owner) ∧
    ∃ m ∈ d.committed.members, m.roomId = "rm_a" ∧ m.agentId = .agent "ag_2" ∧ m.role = .owner := by
  have hrun : (rooms.run { committed := {} } transfersAtOnce).any (fun d =>
      (d.committed.rooms "rm_a").any (fun room => room.ownerId = .agent "ag_2") = true ∧
      (∃ m ∈ d.committed.members.rows, m.roomId = "rm_a" ∧ m.agentId = .agent "ag_1" ∧ m.role = .owner) ∧
      ∃ m ∈ d.committed.members.rows, m.roomId = "rm_a" ∧ m.agentId = .agent "ag_2" ∧ m.role = .owner) = true := by
    decide +kernel
  obtain ⟨d, hrun, hd⟩ := Option.any_eq_true _ _ |>.mp hrun
  obtain ⟨hroom, hfirst, hsecond⟩ := of_decide_eq_true hd
  obtain ⟨room, hroom, howner⟩ := Option.any_eq_true _ _ |>.mp hroom
  exact ⟨d, room, hrun, hroom, of_decide_eq_true howner, hfirst, hsecond⟩

/-- Agent 0 hands the room to agent 1 and then leaves it, and agent 1 hands it on to agent 2. -/
def transfersInTurn : List (CallAction OwnerRequest OwnerEvent) :=
  [.outside (.agent "ag_1" (some none)), .outside (.agent "ag_2" (some none)),
    .call 1 (.createRoom "rm_a" "ag_0" { ownerId := .agent "ag_0" } [.agent "ag_1", .agent "ag_2"] true), .next 1, .next 1, .next 1,
    .call 2 (.transferOwnership "rm_a" "ag_0" (.agent "ag_1") false), .next 2, .next 2, .next 2, .next 2,
    .call 3 (.leaveRoom "rm_a" "ag_0"), .next 3, .next 3, .next 3,
    .call 4 (.transferOwnership "rm_a" "ag_1" (.agent "ag_2") false), .next 4, .next 4, .next 4, .next 4]

theorem one_owner_in_turn : ∃ d room owner, rooms.run { committed := {} } transfersInTurn = some d ∧
    d.committed.rooms "rm_a" = some room ∧ room.ownerId = .agent "ag_2" ∧
    owner ∈ d.committed.members ∧ owner.agentId = .agent "ag_2" ∧
      ∀ m ∈ d.committed.members, m.roomId = "rm_a" → m.role = .owner → m = owner := by
  have hrun : (rooms.run { committed := {} } transfersInTurn).any (fun d =>
      (d.committed.rooms "rm_a").any (fun room => room.ownerId = .agent "ag_2") = true) = true := by decide +kernel
  obtain ⟨d, hrun, hd⟩ := Option.any_eq_true _ _ |>.mp hrun
  obtain ⟨room, hroom, howns⟩ := Option.any_eq_true _ _ |>.mp (of_decide_eq_true hd)
  have howns : room.ownerId = .agent "ag_2" := of_decide_eq_true howns
  obtain ⟨owner, hmem, -, hagent, -, -, honly⟩ := one_owner_in_every_room (fun _ => rfl) (fun _ => Keyed.not_mem_empty)
    (by decide +kernel) hrun "rm_a" room hroom
  exact ⟨d, room, owner, hrun, hroom, howns, hmem, hagent.trans howns, honly⟩

end Runs

end BotCord.Personal
