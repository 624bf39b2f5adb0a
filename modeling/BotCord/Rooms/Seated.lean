import BotCord.Rooms.Seats

/-!
# Only active members sit in organization rooms

The outline of every call, and what follows for runs. Rooms that are opened under the lock of their space need nothing of the other calls; the ways into any room but one refuse the rooms of a space.
-/

namespace BotCord.Rooms

open Spaces (UserId SpaceId AgentId MembershipId MembershipStatus)
open Members

section Calls

variable (s : Store)

theorem sound_createRoom (k : SpaceId) (actorId : UserId) (visibility : SpaceVisibility) (memberIds : List UserId)
    (agentIds : List AgentId) (n : ℕ) :
    (createRoom k actorId visibility memberIds agentIds n).Sound rely (fun _ => False) s := by
  have hheld : (fun x => False ∨ x = Row.space k) (.space k) := .inr rfl
  refine sound_organizationSpace fun t _ => sound_requireMembership fun u _ m hm hactive => sound_humanId ?_
  refine sound_activeMemberUsers fun v rows hv hrows _ => sound_checkAgentsAddable hheld fun w hw hagents => ?_
  refine sound_write fun x hx hinv y hy => ?_
  obtain ⟨z, hz, hy⟩ := Option.bind_eq_some_iff.mp hy
  obtain ⟨hcommits, hroom⟩ : rely.Commits (fun x => False ∨ x = .space k) x z ∧ _ :=
    commits_insertRoom hinv hz fun _ _ h => by cases h
  refine Commits.trans hcommits (commits_addMembers hcommits.inv hy fun member hmember room hfound => ?_)
  have hlater : rely.Later (fun x => False ∨ x = Row.space k) w z := hx.trans (later_insertRoom hz)
  have hactor : z.Active k (.human actorId) := Later.active (hv.trans (hw.trans hlater)) hheld ⟨m, hm, hactive⟩
  have hsit : ∀ p, z.Active k p → member.roomId = .generated n → z.MaySit room p := by
    intro p hp hid k' hk'
    rw [hid, hroom] at hfound
    cases hfound
    cases hk'
    exact hp
  cases List.mem_cons.mp hmember with
  | inl heq =>
    subst heq
    exact hsit _ hactor rfl
  | inr hmem =>
    obtain ⟨p, hp, rfl⟩ := List.mem_map.mp hmem
    refine hsit p ?_ rfl
    cases List.mem_append.mp hp with
    | inl hhuman =>
      obtain ⟨userId, huser, rfl⟩ := List.mem_map.mp hhuman
      obtain ⟨row, hrow, rfl⟩ := List.mem_map.mp (List.mem_of_mem_filter huser)
      exact Later.active (hw.trans hlater) hheld ⟨row.2, hrows row hrow⟩
    | inr hagent =>
      obtain ⟨agentId, hid, rfl⟩ := List.mem_map.mp hagent
      exact Later.active hlater hheld (hagents agentId hid)

theorem mem_missing {roomId : RoomId} {found : List (Participant × RoomRole × Option RoomMember)} {m : RoomMember}
    (h : m ∈ missing roomId found) : m.roomId = roomId ∧ ∃ x ∈ found, m.participant = x.1 := by
  obtain ⟨x, hx, hm⟩ := List.mem_filterMap.mp h
  obtain ⟨-, hm⟩ := Option.ite_none_right_eq_some.mp hm
  cases hm
  exact ⟨rfl, x, hx, rfl⟩

theorem mem_missing_pair {roomId : RoomId} {a b : Participant} {r r' : RoomRole} {x y : Option RoomMember} {m : RoomMember}
    (h : m ∈ missing roomId [(a, r, x), (b, r', y)]) : m.roomId = roomId ∧ (m.participant = a ∨ m.participant = b) := by
  obtain ⟨hid, found, hfound, hparticipant⟩ := mem_missing h
  rw [List.mem_cons, List.mem_singleton] at hfound
  refine ⟨hid, hfound.imp (fun heq => ?_) fun heq => ?_⟩
  · rw [hparticipant, heq]
  · rw [hparticipant, heq]

theorem commits_dm {held : Row → Prop} {t u : Store} {k : SpaceId} {a b : Participant} (hinv : Inv t)
    (ha : t.Active k a) (hb : t.Active k b) {ms : List RoomMember}
    (hms : ∀ m ∈ ms, m.roomId = dmRoomId k a b ∧ (m.participant = a ∨ m.participant = b))
    (h : t.addMembers ms = some u) : rely.Commits held t u := by
  refine commits_addMembers hinv h fun m hm room hroom k' hk' => ?_
  obtain ⟨hid, hparticipant⟩ := hms m hm
  rw [hid] at hroom
  cases (hinv.dm k s(a, b) room hroom).symm.trans hk'
  cases hparticipant with
  | inl heq => exact heq ▸ ha
  | inr heq => exact heq ▸ hb

/-- The room of a pair of whom both are active: either it is new or the missing seats are added. -/
theorem sound_openDm (k : SpaceId) (actorId peerId : UserId) :
    (openDm k actorId peerId).Sound rely (fun _ => False) s := by
  have hheld : (fun x => False ∨ x = Row.space k) (.space k) := .inr rfl
  refine sound_organizationSpace fun t _ => sound_requireMembership fun u _ m hm hactive => sound_humanId ?_
  refine sound_activeMemberUsers fun v rows hv _ hpeer => .require fun _ => .select fun w hw _ => ?_
  have hactor : w.Active k (.human actorId) := Later.active (hv.trans hw) hheld ⟨m, hm, hactive⟩
  have hpeer : w.Active k (.human peerId) := Later.active hw hheld (hpeer peerId List.mem_cons_self)
  split
  · refine sound_memberRow fun actor => sound_memberRow fun peer => sound_write fun x hx hinv y hy => ?_
    exact commits_dm hinv (Later.active hx hheld hactor) (Later.active hx hheld hpeer) (fun _ => mem_missing_pair) hy
  · refine sound_write fun x hx hinv y hy => ?_
    obtain ⟨z, hz, hy⟩ := Option.bind_eq_some_iff.mp hy
    obtain ⟨hcommits, -⟩ : rely.Commits (fun x => False ∨ x = .space k) x z ∧ _ :=
      commits_insertRoom hinv hz fun k' pair h => by
        cases h
        rfl
    have hlater : rely.Later (fun x => False ∨ x = Row.space k) w z := hx.trans (later_insertRoom hz)
    refine Commits.trans hcommits (commits_dm hcommits.inv (Later.active hlater hheld hactor)
      (Later.active hlater hheld hpeer) (fun member hmember => ?_) hy)
    simp only [List.mem_cons, List.not_mem_nil, or_false] at hmember
    cases hmember with
    | inl heq => exact heq ▸ ⟨rfl, .inl rfl⟩
    | inr heq => exact heq ▸ ⟨rfl, .inr rfl⟩

theorem sound_openAgentDm (k : SpaceId) (actorId : UserId) (agentId : AgentId) (granted : Bool) :
    (openAgentDm k actorId agentId granted).Sound rely (fun _ => False) s := by
  have hheld : (fun x => False ∨ x = Row.space k) (.space k) := .inr rfl
  refine sound_organizationSpace fun t _ => sound_requireMembership fun u _ m hm hactive => ?_
  refine sound_requireAgentMembership fun v am hv ham hagent => .require fun _ => sound_humanId (.select fun w hw _ => ?_)
  refine sound_memberRow fun actor => sound_memberRow fun agent => sound_write fun x hx hinv y hy => ?_
  obtain ⟨z, hz, hy⟩ := Option.bind_eq_some_iff.mp hy
  have hroom : rely.Commits (fun x => False ∨ x = .space k) x z ∧ rely.Later (fun x => False ∨ x = Row.space k) x z := by
    split at hz
    · refine ⟨(commits_insertRoom hinv hz fun k' pair h => ?_).1, later_insertRoom hz⟩
      cases h
      rfl
    · cases hz
      exact ⟨commits_of_same hinv (fun _ _ h => h) rfl rfl rfl, .refl⟩
  have hlater := hw.trans (hx.trans hroom.2)
  have hactor : z.Active k (.human actorId) := Later.active (hv.trans hlater) hheld ⟨m, hm, hactive⟩
  have hagent : z.Active k (.agent agentId) := Later.active hlater hheld ⟨am, ham, hagent⟩
  exact Commits.trans hroom.1 (commits_dm hroom.1.inv hactor hagent (fun _ => mem_missing_pair) hy)

theorem maySit_of_space {t u : Store} {k : SpaceId} {roomId : RoomId} {room found : Room} {p : Participant}
    (hroom : t.rooms roomId = some room) (hspace : room.spaceId = some k) (hsince : Since t u)
    (hfound : u.rooms roomId = some found) (hp : u.Active k p) : u.MaySit found p := by
  intro k' hk'
  cases (hsince roomId room hroom).symm.trans hfound
  cases hspace.symm.trans hk'
  exact hp

theorem sound_joinRoom (k : SpaceId) (actorId : UserId) (roomId : RoomId) :
    (joinRoom k actorId roomId).Sound rely (fun _ => False) s := by
  refine sound_requiredMembership fun t _ m _ hactive => sound_spaceRoom fun u room _ hroom hspace => ?_
  refine sound_humanId (sound_memberRow fun seat => ?_)
  split
  · exact sound_finish
  · refine .require fun _ => .commit fun v hv hinv hread w hw => commits_addMember hinv hw fun found hfound => ?_
    exact maySit_of_space hroom hspace hv.since hfound ⟨m, of_decide_eq_true (hread trivial), hactive⟩

theorem sound_addAgent (k : SpaceId) (actorId : UserId) (roomId : RoomId) (agentId : AgentId) :
    (addAgent k actorId roomId agentId).Sound rely (fun _ => False) s := by
  refine sound_requireMembership fun t _ _ _ _ => sound_lockedSpaceRoom fun u room _ hroom hspace => .require fun _ => ?_
  refine sound_humanId (sound_memberRow fun actor => .require fun _ => sound_checkAgentAddable fun v m hv _ hactive => ?_)
  refine sound_memberRow fun existing => ?_
  split
  · exact sound_finish
  · refine .commit fun w hw hinv hread x hx => commits_addMember hinv hx fun found hfound => ?_
    exact maySit_of_space hroom hspace (hv.trans hw).since hfound ⟨m, of_decide_eq_true (hread trivial), hactive⟩

theorem sound_unseated {held : Row → Prop} {roomId : RoomId} {userIds : List UserId} {next : List RoomMember → Call}
    (h : ∀ added, (∀ m ∈ added, m.roomId = roomId ∧ ∃ userId ∈ userIds, m.participant = .human userId) →
      (next added).Sound rely held s) : (unseated roomId userIds next).Sound rely held s := by
  induction userIds generalizing next with
  | nil => exact h [] fun m hm => by cases hm
  | cons userId rest ih =>
    refine sound_memberRow fun seat => ih fun added hadded => h _ fun m hm => ?_
    cases List.mem_append.mp hm with
    | inl hfirst =>
      obtain ⟨hid, x, hx, hparticipant⟩ := mem_missing hfirst
      rw [List.mem_singleton.mp hx] at hparticipant
      exact ⟨hid, userId, List.mem_cons_self, hparticipant⟩
    | inr hlater =>
      obtain ⟨hid, other, hother, hparticipant⟩ := hadded m hlater
      exact ⟨hid, other, List.mem_cons_of_mem _ hother, hparticipant⟩

theorem sound_addMembers (k : SpaceId) (actorId : UserId) (roomId : RoomId) (memberIds : List UserId) :
    (addMembers k actorId roomId memberIds).Sound rely (fun _ => False) s := by
  refine sound_requireMembership fun t _ _ _ _ => sound_lockedSpaceRoom fun u room _ hroom hspace => .require fun _ => ?_
  refine sound_humanId (sound_memberRow fun actor => .require fun _ => sound_activeMemberUsers fun v rows hv hrows _ => ?_)
  refine sound_unseated v fun added hadded => .commit fun w hw hinv hread x hx => ?_
  refine commits_addMembers hinv hx fun m hm found hfound => ?_
  obtain ⟨hid, userId, huser, hparticipant⟩ := hadded m hm
  obtain ⟨row, hrow, rfl⟩ := List.mem_map.mp huser
  rw [hid] at hfound
  rw [hparticipant]
  refine maySit_of_space hroom hspace (hv.trans hw).since hfound ⟨row.2, ?_, (hrows row hrow).2⟩
  exact of_decide_eq_true (hread trivial) row hrow

theorem sound_removeParticipant (k : SpaceId) (actorId : UserId) (roomId : RoomId) (p : Participant) :
    (removeParticipant k actorId roomId p).Sound rely (fun _ => False) s := by
  refine sound_requireMembership fun t _ _ _ _ => sound_lockedSpaceRoom fun u room _ _ _ => sound_humanId ?_
  refine sound_memberRow fun found => ?_
  split
  · exact sound_finish
  · rename_i row
    have hremove : ∀ v, (Program.require (row.role ≠ .owner ∨ room.spaceKind ≠ .room) (write fun s =>
        some (s.dropMembers fun m => m.roomId = roomId ∧ m.participant = p)) : Call).Sound rely (fun _ => False) v :=
      fun v => .require fun _ => sound_write fun w _ hinv x hx => by
        cases hx
        exact commits_dropMembers hinv _
    split
    · exact hremove u
    · refine sound_memberRow fun actor => ?_
      split
      · exact hremove u
      · split
        · exact sound_requireManager (hremove u)
        · refine .select fun v _ _ => ?_
          split
          · exact hremove v
          · exact sound_requireManager (hremove v)

theorem sound_inviteUser (k : SpaceId) (actorId targetId : UserId) (id : MembershipId) :
    (inviteUser k actorId targetId id).Sound rely (fun _ => False) s := by
  have hheld : (fun x => False ∨ x = Row.space k) (.space k) := .inr rfl
  refine sound_organizationSpace fun _ _ => sound_requireManager (sound_activeUser (sound_membershipOf fun t ht => ?_))
  have hinactive : ∀ u, rely.Later (fun x => False ∨ x = .space k) t u → (∀ m ∈ t.memberships k targetId,
      m.status ≠ .active) → ¬ u.Active k (.human targetId) := by
    rintro u hu hnot ⟨m, hm, hactive⟩
    rw [Later.memberships hu hheld] at hm
    exact hnot m hm hactive
  split
  · rename_i hnone
    refine sound_write fun u hu hinv v hv => ?_
    cases hv
    exact commits_putMembership hinv hheld (hinactive u hu fun m hm => by cases hnone.symm.trans hm)
  · rename_i found hfound
    split
    · exact sound_finish
    · rename_i hstatus
      refine sound_write fun u hu hinv v hv => ?_
      cases hv
      refine commits_putMembership hinv hheld (hinactive u hu fun m hm => ?_)
      cases hfound.symm.trans hm
      exact fun hactive => hstatus (.inl hactive)

theorem sound_acceptInvitation (k : SpaceId) (userId : UserId) :
    (acceptInvitation k userId).Sound rely (fun _ => False) s := by
  have hheld : (fun x => False ∨ x = Row.space k) (.space k) := .inr rfl
  refine sound_organizationSpace fun _ _ => sound_activeUser (sound_membershipOf fun t ht => ?_)
  split
  · trivial
  · rename_i found hfound
    refine .require fun _ => ?_
    split
    · exact sound_finish
    · rename_i hstatus
      refine sound_write fun u hu hinv v hv => ?_
      cases hv
      refine commits_putMembership hinv hheld ?_
      rintro ⟨m, hm, hactive⟩
      rw [Later.memberships hu hheld] at hm
      cases hfound.symm.trans hm
      exact hstatus hactive

theorem active_of_removed {t u : Store} {k : SpaceId} {userId : UserId} {m : Membership}
    {p : Participant} (hleft : p ∉ Participant.human userId :: (u.sponsored k userId).map fun m => .agent m.agentId) (h : t.Active k p) :
    ((t.putMembership k userId m).putAgentMemberships (· ∈ u.sponsored k userId) AgentMembership.remove).Active k p := by
  cases p with
  | human other =>
    have hne : other ≠ userId := by
      rintro rfl
      exact hleft List.mem_cons_self
    have hsame : (t.putMembership k userId m).memberships k other = t.memberships k other := by
      rw [memberships_putMembership, if_pos rfl, Function.update_of_ne hne]
    obtain ⟨found, hfound, hactive⟩ := h
    exact ⟨found, hsame.trans hfound, hactive⟩
  | agent agentId =>
    obtain ⟨found, hfound, hactive⟩ := h
    have hnot : found ∉ u.sponsored k userId := by
      intro hmem
      refine hleft (List.mem_cons_of_mem _ (List.mem_map.mpr ⟨found, hmem, ?_⟩))
      rw [(spaceId_of_agentMembership hfound).2]
    have hsame : (t.putMembership k userId m).agentMembership k agentId = some found := hfound
    refine ⟨found, (agentMembership_putAgentMemberships (p := (· ∈ u.sponsored k userId)) (f := AgentMembership.remove)
      (fun _ => rfl) k agentId).trans ?_, hactive⟩
    rw [hsame, Option.map_some, if_neg hnot]

theorem sound_removeUser (k : SpaceId) (actorId targetId : UserId) :
    (removeUser k actorId targetId).Sound rely (fun _ => False) s := by
  have hheld : (fun x => False ∨ x = Row.space k) (.space k) := .inr rfl
  refine sound_organizationSpace fun t _ => sound_requireRemover (sound_membershipOf fun u _ => ?_)
  split
  · trivial
  · rename_i found _
    refine sound_rolesFor fun v _ => .require fun _ => ?_
    suffices hremove : _ by
      split
      · exact sound_requireManager hremove
      · exact hremove
    split
    · exact sound_finish
    · refine .select fun w _ _ => .select fun x hx _ => .commit fun y hy hinv hread z hz => ?_
      cases hz
      refine commits_dropped hinv hheld rfl rfl rfl rfl (fun k' hk => ?_) (fun k' hk => ?_)
        (fun p hp => active_of_removed hp) (of_decide_eq_true (hread trivial))
      · exact (memberships_putMembership k').trans (if_neg hk)
      · funext agentId
        have hold : (y.putMembership k targetId
            { id := found.id, status := .removed, version := found.version + 1 }).agentMembership k' agentId =
              y.agentMembership k' agentId := rfl
        refine (agentMembership_putAgentMemberships (p := (· ∈ w.sponsored k targetId)) (f := AgentMembership.remove)
          (fun _ => rfl) k' agentId).trans ?_
        rw [hold]
        cases hm : y.agentMembership k' agentId with
        | none => rfl
        | some m =>
          have hnot : m ∉ w.sponsored k targetId := by
            intro hmem
            have hspace := (of_decide_eq_true (List.mem_filter.mp hmem).2).1
            exact hk ((spaceId_of_agentMembership hm).1.symm.trans hspace)
          rw [Option.map_some, if_neg hnot]

theorem sound_requestAgentAdmission (k : SpaceId) (userId : UserId) (agentId : AgentId) :
    (requestAgentAdmission k userId agentId).Sound rely (fun _ => False) s := by
  have hheld : (fun x => False ∨ x = Row.space k) (.space k) := .inr rfl
  refine sound_organizationSpace fun t _ => sound_requiredMembership fun u _ sponsor _ _ => .select fun v _ _ => ?_
  refine .require fun _ => .select fun w _ _ => ?_
  split
  · refine sound_write fun x _ hinv y hy => ?_
    obtain ⟨table, htable, rfl⟩ := Option.map_eq_some_iff.mp hy
    exact commits_insertAgentMembership hinv hheld htable
  · rename_i m hm
    split
    · exact sound_finish
    · rename_i hstatus
      refine sound_write fun x hx hinv y hy => ?_
      cases hy
      refine commits_putAgentMemberships hinv hheld _ (fun m hkey => congrArg Prod.fst hkey) ?_
      intro seat _ _ other found _ hfound hkey hactive
      rw [Later.agentMembership hx hheld] at hfound
      obtain ⟨hspace, hagent⟩ := spaceId_of_agentMembership hfound
      have hother : other = agentId := hagent.symm.trans (congrArg Prod.snd hkey)
      subst hother
      cases hm.symm.trans hfound
      exact absurd (.inl hactive) hstatus

theorem sound_approveAgent (k : SpaceId) (actorId : UserId) (agentId : AgentId) :
    (approveAgent k actorId agentId).Sound rely (fun _ => False) s := by
  refine sound_organizationSpace fun t _ => sound_requireManager (.select fun u _ _ => ?_)
  split
  · trivial
  · refine .require fun _ => sound_requireSponsored ?_
    split
    · exact sound_finish
    · refine sound_write fun v _ hinv w hw => ?_
      cases hw
      exact commits_putAgentMemberships hinv (.inr rfl) _ (fun m hkey => congrArg Prod.fst hkey)
        fun _ _ _ _ _ _ _ _ _ => rfl

theorem sound_removeAgent (k : SpaceId) (actorId : UserId) (agentId : AgentId) :
    (removeAgent k actorId agentId).Sound rely (fun _ => False) s := by
  have hheld : (fun x => False ∨ x = Row.space k) (.space k) := .inr rfl
  refine sound_organizationSpace fun t _ => sound_requireMembership fun u _ _ _ _ => .select fun v _ _ => ?_
  split
  · trivial
  · rename_i m _
    suffices hremove : (if m.status = .removed then .finish
        else dropSpaceParticipants k [.agent agentId] fun dropped =>
          .commit (fun s => ∀ m ∈ s.seatsIn k [.agent agentId], m ∈ dropped) fun s =>
            some ((s.putAgentMemberships (·.key = (k, agentId)) AgentMembership.remove).dropMembers (· ∈ dropped)) :
        Call).Sound rely (fun x => False ∨ x = SpaceRows.space k) v by
      by_cases hown : m.sponsor = actorId
      · simpa only [if_pos hown] using hremove
      · simpa only [if_neg hown] using sound_requireManager hremove
    split
    · exact sound_finish
    · refine .select fun w _ _ => .commit fun x _ hinv hread y hy => ?_
      have hfound := agentMembership_putAgentMemberships (s := x) (p := (·.key = (k, agentId))) (f := AgentMembership.remove)
        (fun _ => rfl)
      cases hy
      refine commits_dropped hinv hheld rfl rfl rfl rfl (fun _ _ => rfl) (fun k' hk => funext fun other => ?_)
        (fun p hp hactive => ?_) (of_decide_eq_true (hread trivial))
      · refine (hfound k' other).trans ?_
        cases hm : x.agentMembership k' other with
        | none => rfl
        | some found =>
          have hkey : found.key ≠ (k, agentId) := fun hkey =>
            hk ((spaceId_of_agentMembership hm).1.symm.trans (congrArg Prod.fst hkey))
          rw [Option.map_some, if_neg hkey]
      · cases p with
        | human userId => exact hactive
        | agent other =>
          obtain ⟨found, hm, hstatus⟩ := hactive
          have hkey : found.key ≠ (k, agentId) := by
            intro hkey
            have hother : other = agentId :=
              (spaceId_of_agentMembership hm).2.symm.trans (congrArg Prod.snd hkey)
            exact hp (hother ▸ List.mem_singleton.mpr rfl)
          have hm : x.agentMembership k other = some found := hm
          refine ⟨found, (hfound k other).trans ?_, hstatus⟩
          rw [hm, Option.map_some, if_neg hkey]

section Generic

variable {s} {held : Row → Prop} {roomId : RoomId} {room : Room}

theorem isSome_of_since {t : Store} (hroom : s.rooms roomId = some room) (hsince : Since s t) :
    (t.rooms roomId).isSome := Option.isSome_iff_exists.mpr ⟨room, hsince roomId room hroom⟩

theorem sound_seatOrQueue {p : Participant} {owner : Option UserId} {approvalId : ℕ} {limits : Room}
    (hroom : s.rooms roomId = some room) : (seatOrQueue roomId limits p owner approvalId).Sound rely held s := by
  unfold seatOrQueue
  split
  · refine sound_write fun t ht hinv u hu => ?_
    obtain ⟨-, hu⟩ := Option.ite_none_right_eq_some.mp hu
    cases hu
    refine commits_putApproval hinv approvalId fun other hother => ?_
    cases hother
    exact isSome_of_since hroom ht.since
  · exact sound_withinSize (sound_seatInGenericRoom (isSome_of_since hroom fun _ _ h => h))

end Generic

theorem sound_joinRoomAsHuman (userId : UserId) (roomId : RoomId) (permitted : Bool) :
    (joinRoomAsHuman userId roomId permitted).Sound rely (fun _ => False) s :=
  sound_lockedRoom fun _ _ _ hroom => sound_memberRow fun _ => .require fun _ => sound_withinSize
    (sound_seatInGenericRoom (isSome_of_since hroom fun _ _ h => h))

theorem sound_inviteRoomMemberAsHuman (userId : UserId) (roomId : RoomId) (p : Participant) (permitted : Bool)
    (approvalId : ℕ) : (inviteRoomMemberAsHuman userId roomId p permitted approvalId).Sound rely (fun _ => False) s := by
  refine sound_lockedRoom fun t room _ hroom => sound_memberRow fun _ => .require fun _ => .select fun u hu _ => ?_
  exact .require fun _ => sound_memberRow fun _ => .require fun _ => sound_seatOrQueue (hu.since roomId room hroom)

theorem sound_addMember (agentId : AgentId) (roomId : RoomId) (p : Participant) (permitted : Bool) (approvalId : ℕ) :
    (addMember agentId roomId p permitted approvalId).Sound rely (fun _ => False) s := by
  refine sound_loadRoom fun t room _ hroom => .require fun _ => ?_
  split
  · exact sound_withinSize (sound_seatInGenericRoom (isSome_of_since hroom fun _ _ h => h))
  · refine sound_memberRow fun _ => .require fun _ => .select fun u hu _ => .require fun _ => ?_
    exact sound_seatOrQueue (hu.since roomId room hroom)

/-- The room of an entry exists from before the call, so that it is found to be of a space where it is. -/
theorem sound_resolvePendingApproval (userId : UserId) (approvalId : ℕ) (approve : Bool) :
    (resolvePendingApproval userId approvalId approve).Sound rely (fun _ => False) s := by
  refine .select fun t _ hinv => ?_
  split
  · trivial
  · rename_i approval happroval
    refine .require fun _ => ?_
    have hrooms : ∀ u, Since t u → ∀ roomId, approval.roomId = some roomId → (u.rooms roomId).isSome := by
      intro u hu roomId hid
      obtain ⟨room, hroom⟩ := Option.isSome_iff_exists.mp (hinv.approvals approvalId approval happroval roomId hid)
      exact isSome_of_since hroom hu
    have hresolve : ∀ u state, Since t u → Inv u →
        rely.Commits (fun _ => False) u (u.putApproval approvalId { approval with state }) :=
      fun u state hu hinv => commits_putApproval hinv approvalId (hrooms u hu)
    split
    · exact sound_write fun u hu hinv v hv => by
        cases hv
        exact hresolve u _ hu.since hinv
    · exact sound_write fun u hu hinv v hv => by
        cases hv
        exact hresolve u _ hu.since hinv
    · rename_i roomId hid
      obtain ⟨room, hroom⟩ := Option.isSome_iff_exists.mp (hrooms t (fun _ _ h => h) roomId hid)
      refine .select fun u hu _ => .require fun hgeneric => sound_write fun v hv hinv w hw => ?_
      have hcommits := hresolve v .approved (fun r x hx => hv.since r x (hu.since r x hx)) hinv
      cases hw
      cases hadd : (v.putApproval approvalId { approval with state := .approved }).addMember
          { roomId, participant := .agent approval.agentId } with
      | none => exact hcommits
      | some x =>
        refine Commits.trans hcommits (commits_addMember hcommits.inv hadd fun found hfound k hk => ?_)
        have hu : u.rooms roomId = some room := hu.since roomId room hroom
        have hv : v.rooms roomId = some room := hv.since roomId room hu
        cases hv.symm.trans hfound
        simp only [hu, Option.bind_some] at hgeneric
        exact absurd (hgeneric.symm.trans hk) (by simp)

theorem sound_createRoomInviteAsHuman (userId : UserId) (roomId : RoomId) (permitted : Bool) (expiresInHours : Option ℕ)
    (maxUses : ℕ) (code : String) :
    (createRoomInviteAsHuman userId roomId permitted expiresInHours maxUses code).Sound rely (fun _ => False) s := by
  refine sound_loadRoom fun _ _ _ _ => sound_memberRow fun _ => .require fun _ => sound_clock fun _ => ?_
  refine sound_write fun t _ hinv u hu => ?_
  obtain ⟨-, hu⟩ := Option.ite_none_right_eq_some.mp hu
  cases hu
  exact commits_putInvite hinv code _

theorem sound_redeemInviteForAgent (code : String) (agentId : AgentId) (subscribed : Bool) :
    (redeemInviteForAgent code agentId subscribed).Sound rely (fun _ => False) s := by
  refine .select fun t _ _ => ?_
  split
  · trivial
  · split
    · exact .require fun _ => sound_clock fun _ => .require fun _ => sound_write fun _ _ hinv _ hu =>
        commits_recordRedemption hinv hu
    · rename_i roomId _
      refine sound_loadRoom fun u room _ hroom => sound_memberRow fun _ => ?_
      split
      · exact sound_finish
      · refine sound_clock fun _ => .require fun _ => sound_withinSize (.commit fun v hv hinv hread w hw => ?_)
        obtain ⟨x, hx, hw⟩ := Option.bind_eq_some_iff.mp hw
        have hcommits : rely.Commits (fun _ => False) v x := commits_addMember hinv hx fun found hfound => by
          cases (hv.since roomId room hroom).symm.trans hfound
          exact of_decide_eq_true (hread trivial)
        exact Commits.trans hcommits (commits_recordRedemption hcommits.inv hw)

end Calls

theorem sound_program (request : Request) (s : Store) : request.program.Sound rely (fun _ => False) s := by
  cases request with
  | createRoom k actorId visibility memberIds agentIds n =>
    exact sound_createRoom s k actorId visibility memberIds agentIds n
  | openDm k actorId peerId => exact sound_openDm s k actorId peerId
  | openAgentDm k actorId agentId granted => exact sound_openAgentDm s k actorId agentId granted
  | joinRoom k actorId roomId => exact sound_joinRoom s k actorId roomId
  | addAgent k actorId roomId agentId => exact sound_addAgent s k actorId roomId agentId
  | addMembers k actorId roomId memberIds => exact sound_addMembers s k actorId roomId memberIds
  | removeParticipant k actorId roomId p => exact sound_removeParticipant s k actorId roomId p
  | inviteUser k actorId targetId id => exact sound_inviteUser s k actorId targetId id
  | acceptInvitation k userId => exact sound_acceptInvitation s k userId
  | removeUser k actorId targetId => exact sound_removeUser s k actorId targetId
  | requestAgentAdmission k userId agentId => exact sound_requestAgentAdmission s k userId agentId
  | approveAgent k actorId agentId => exact sound_approveAgent s k actorId agentId
  | removeAgent k actorId agentId => exact sound_removeAgent s k actorId agentId
  | joinRoomAsHuman userId roomId permitted => exact sound_joinRoomAsHuman s userId roomId permitted
  | inviteRoomMemberAsHuman userId roomId p permitted approvalId =>
    exact sound_inviteRoomMemberAsHuman s userId roomId p permitted approvalId
  | addMember agentId roomId p permitted approvalId => exact sound_addMember s agentId roomId p permitted approvalId
  | resolvePendingApproval userId approvalId approve => exact sound_resolvePendingApproval s userId approvalId approve
  | createRoomInviteAsHuman userId roomId permitted expiresInHours maxUses code =>
    exact sound_createRoomInviteAsHuman s userId roomId permitted expiresInHours maxUses code
  | redeemInviteForAgent code agentId subscribed => exact sound_redeemInviteForAgent s code agentId subscribed

theorem outside_kept (event : Event) {s : Store} (hinv : Inv s) :
    Inv (event.apply s) ∧ ∀ held, rely.Later held s (event.apply s) := by
  cases event with
  | tick microseconds =>
    exact ⟨⟨hinv.seated, hinv.dm, hinv.approvals⟩, fun held => ⟨fun r _ => by cases r <;> rfl, fun _ _ h => h⟩⟩
  | user userId row =>
    exact ⟨⟨hinv.seated, hinv.dm, hinv.approvals⟩, fun held => ⟨fun r _ => by cases r <;> rfl, fun _ _ h => h⟩⟩
  | agent agentId row =>
    exact ⟨⟨hinv.seated, hinv.dm, hinv.approvals⟩, fun held => ⟨fun r _ => by cases r <;> rfl, fun _ _ h => h⟩⟩
  | genericRoom n owner maxMembers =>
    cases hopen : (s.insertRoom (.generated n) { owner, maxMembers }).bind
        (·.addMember { roomId := .generated n, participant := owner, role := .owner }) with
    | none =>
      simp only [Event.apply, hopen, Option.getD_none]
      exact ⟨hinv, fun _ => .refl⟩
    | some t =>
      simp only [Event.apply, hopen, Option.getD_some]
      obtain ⟨opened, hroom, hseat⟩ := Option.bind_eq_some_iff.mp hopen
      obtain ⟨hcommits, hfound⟩ : rely.Commits (fun _ => False) s opened ∧ _ :=
        commits_insertRoom hinv hroom fun _ _ h => by cases h
      have hseated : rely.Commits (fun _ => False) opened t :=
        commits_addMember hcommits.inv hseat fun room hother k hk => by
          cases hfound.symm.trans hother
          cases hk
      have hall := Commits.trans hcommits hseated
      exact ⟨hall.inv, fun held => hall.later fun _ _ h => h⟩
  | leave roomId p =>
    have hcommits : rely.Commits (fun _ => False) s (s.dropMembers fun m => m.roomId = roomId ∧ m.participant = p) :=
      commits_dropMembers hinv _
    exact ⟨hcommits.inv, fun held => hcommits.later fun _ _ h => h⟩

/-- Whoever sits in a room of a space is an active member of it. -/
def Store.OnlyActive (s : Store) : Prop := ∀ m ∈ s.members, ∀ room ∈ s.rooms m.roomId, s.MaySit room m.participant
deriving Decidable

theorem Inv.onlyActive {s : Store} (h : Inv s) : s.OnlyActive := by
  intro m hm room hroom
  obtain ⟨found, hfound, hsit⟩ := h.seated m hm
  cases hfound.symm.trans hroom
  exact hsit

/-- In every run in which no membership that `join_room`, `add_members` or `add_agent` has read changes before their commit, no seat of those who are removed is taken after their seats were deleted and before the removal commits, and no invite into a room of a space is redeemed by an agent that is no active member there: only active members sit in the rooms of a space. -/
theorem only_active_members_seated {start : Store} {d : Calls Store Row} (hstart : Inv start)
    {actions : List (CallAction Request Event)} (hmeets : orgRooms.Meets Calls.AsRead { committed := start } actions)
    (hrun : orgRooms.run { committed := start } actions = some d) : d.committed.OnlyActive := by
  have hkept := orgRooms.run_invariant_of_meets (fun d a d' hkept hread hnext =>
    (Calls.Kept.step (fun request s _ => sound_program request s) (fun event s hinv => outside_kept event hinv)
      hkept (fun _ => hread) hnext).1) (Calls.Kept.start (R := rely) hstart) hmeets hrun
  exact hkept.inv.onlyActive

/-- Users 1 and 2 are members of space 1, user 1 sits in its open room 0. -/
def organization : Store where
  users u := if u = 1 ∨ u = 2 then some { id := u, humanId := "hu_" ++ toString u } else none
  spaces k := if k = 1 then some { id := 1, kind := .organization } else none
  memberships k u :=
    if k = 1 ∧ u = 1 then some { id := 1, status := .active, roles := [.owner] }
    else if k = 1 ∧ u = 2 then some { id := 2, status := .active, roles := [.member] } else none
  rooms r :=
    if r = .generated 0 then some { owner := .human 1, spaceId := some 1, spaceVisibility := .organization } else none
  members := [{ roomId := .generated 0, participant := .human 1, role := .owner }]

theorem inv_organization : Inv organization where
  seated m hm := by
    cases List.mem_singleton.mp hm
    refine ⟨{ owner := .human 1, spaceId := some 1, spaceVisibility := .organization }, by decide, ?_⟩
    decide
  dm k pair room h := by
    simp [organization] at h
  approvals approvalId approval h := by
    simp [organization] at h

def joinedAndLeft : List (CallAction Request Event) :=
  .call 0 (.joinRoom 1 2 (.generated 0)) :: List.replicate 7 (.next 0) ++
    .call 0 (.removeUser 1 2 2) :: List.replicate 9 (.next 0)

theorem only_active_members_seated_left : ∃ d, orgRooms.run { committed := organization } joinedAndLeft = some d ∧
    d.running 0 = none ∧ d.committed.members = organization.members ∧ d.committed.OnlyActive := by
  have hmeets : orgRooms.Meets Calls.AsRead { committed := organization } joinedAndLeft := by decide +kernel
  have hrun : (orgRooms.run { committed := organization } joinedAndLeft).any (fun d =>
      (d.running 0).isNone ∧ d.committed.members = organization.members) = true := by decide +kernel
  obtain ⟨d, hrun, hd⟩ := Option.any_eq_true _ _ |>.mp hrun
  obtain ⟨hended, hmembers⟩ := of_decide_eq_true hd
  exact ⟨d, hrun, Option.isNone_iff_eq_none.mp hended, hmembers, only_active_members_seated inv_organization hmeets hrun⟩

/-- User 2 is found to be a member, leaves the organization, and then takes the seat. -/
def joinedWhileLeaving : List (CallAction Request Event) :=
  .call 0 (.joinRoom 1 2 (.generated 0)) :: List.replicate 6 (.next 0) ++
    .call 1 (.removeUser 1 2 2) :: List.replicate 9 (.next 1) ++ [.next 0]

/-- User 1 makes an invite for the room, and an agent of nobody in the organization redeems it. -/
def redeemedByOutsider : List (CallAction Request Event) :=
  .call 0 (.createRoomInviteAsHuman 1 (.generated 0) true none 1 "iv_1") :: List.replicate 4 (.next 0) ++
    .call 1 (.redeemInviteForAgent "iv_1" "ag_1" true) :: List.replicate 5 (.next 1)

theorem outsiders_seated : Inv organization ∧
    (∃ d, orgRooms.run { committed := organization } joinedWhileLeaving = some d ∧ ¬ d.committed.OnlyActive) ∧
    ∃ d, orgRooms.run { committed := organization } redeemedByOutsider = some d ∧ ¬ d.committed.OnlyActive := by
  have hleaving : (orgRooms.run { committed := organization } joinedWhileLeaving).any (fun d =>
      ¬ d.committed.OnlyActive) = true := by decide +kernel
  have hredeemed : (orgRooms.run { committed := organization } redeemedByOutsider).any (fun d =>
      ¬ d.committed.OnlyActive) = true := by decide +kernel
  obtain ⟨d, hd, hnot⟩ := Option.any_eq_true _ _ |>.mp hleaving
  obtain ⟨e, he, hnot'⟩ := Option.any_eq_true _ _ |>.mp hredeemed
  exact ⟨inv_organization, ⟨d, hd, of_decide_eq_true hnot⟩, e, he, of_decide_eq_true hnot'⟩

end BotCord.Rooms
