import BotCord.Personal.Gates

/-!
# Who enters passes the gates

A call of a human counts and inserts under the lock of the room, so its limit holds, and only what lets its participant through the gate of a product can go while it runs. A call of an agent holds no lock, and an approval checks nothing.
-/

namespace BotCord.Personal

open Rooms (Participant RoomRole)
open Spaces (UserId AgentId)
open Contacts (participantTypeFor)

/-- Who enters passes the gates at the commit. A commit writes no room and inserts in no room that its call does not hold, and members go without a lock. -/
def gatesRely : Rely Store RoomId where
  β _ := Option Room × ℕ
  row k s := (s.rooms k, s.entered k)
  inv _ := True
  since s t := (∀ k, s.rooms k = none → t.rooms k = none) ∧ ∀ k, t.seats k + s.entered k ≤ s.seats k + t.entered k
  commits s t := ∀ k p, s.seat k p = none → t.seat k p ≠ none → t.Gated k p
  trusted := True
  refl _ := ⟨fun _ h => h, fun _ => le_rfl⟩
  trans _ _ _ hst htu := ⟨fun k h => htu.1 k (hst.1 k h), fun k => by
    have h := hst.2 k
    have h' := htu.2 k
    omega⟩

section Writes

variable {s t u : Store} {held : RoomId → Prop} {member : RoomMember} {role : RoomRole} {k : RoomId} {p : Participant}

theorem seats_insertMember (h : s.insertMember member = some t) :
    t.seats k = s.seats k + if member.roomId = k then 1 else 0 := by
  obtain ⟨members, -, hadds, rfl⟩ := insertMember_eq_some h
  simp only [Store.seats, hadds.rows, List.countP_append, List.countP_singleton, decide_eq_true_eq]

theorem entered_insertMember (h : s.insertMember member = some t) :
    t.entered k = s.entered k + if member.roomId = k then 1 else 0 := by
  obtain ⟨members, -, -, rfl⟩ := insertMember_eq_some h
  dsimp only
  rw [Function.update_apply]
  by_cases hk : k = member.roomId
  · subst hk
    rw [if_pos rfl, if_pos rfl]
  · rw [if_neg hk, if_neg fun h => hk h.symm, Nat.add_zero]

theorem seats_updateMember (h : s.updateMember member role = some t) : t.seats k = s.seats k := by
  obtain ⟨-, h⟩ := Option.ite_none_right_eq_some.mp h
  cases h
  simp only [Store.seats, Keyed.modify, Table.update, List.countP_map]
  refine List.countP_congr fun m _ => ?_
  simp only [Function.comp_apply]
  split <;> exact Iff.rfl

theorem seats_deleteMember_le : (s.deleteMember member).seats k ≤ s.seats k := List.filter_sublist.countP_le

theorem commits_of_nobody (hrooms : ∀ k, s.rooms k = none → t.rooms k = none) (hframe : ∀ k, ¬ held k → t.rooms k = s.rooms k)
    (hentered : t.entered = s.entered) (hseats : ∀ k, t.seats k ≤ s.seats k)
    (hseat : ∀ k p, s.seat k p = none → t.seat k p = none) : gatesRely.Commits held s t := by
  refine ⟨trivial, ⟨hrooms, fun k => ?_⟩, fun k hk => ?_, fun k p hnone hsome => absurd (hseat k p hnone) hsome⟩
  · rw [hentered]
    exact Nat.add_le_add_right (hseats k) _
  · exact Prod.ext (hframe k hk) (congrFun hentered k)

theorem admits_insertMember (ht : s.insertMember member = some t) {room : Room} {productId : ProductId}
    (h : s.Admits k room productId p) : t.Admits k room productId p := by
  obtain ⟨members, -, hadds, rfl⟩ := insertMember_eq_some ht
  refine h.imp_right fun h => ?_
  cases p with
  | agent agentId => exact h
  | human userId =>
    refine h.imp_right fun ⟨m, hm, hrole⟩ => ⟨m, ?_, hrole⟩
    obtain ⟨hmem, hm⟩ := List.mem_filter.mp hm
    exact List.mem_filter.mpr ⟨hadds.mem_iff.mpr (.inl hmem), hm⟩

theorem commits_insertMember (hheld : held member.roomId ∨ s.rooms member.roomId = none) (ht : s.insertMember member = some t)
    (hgates : s.seat member.roomId member.agentId = none → ∀ room, s.rooms member.roomId = some room →
      (∀ maxMembers ∈ room.maxMembers, s.seats member.roomId < maxMembers) ∧
      ∀ productId ∈ room.requiredSubscriptionProductId, s.Admits member.roomId room productId member.agentId) :
    gatesRely.Commits held s t := by
  have hseats : ∀ k, t.seats k = s.seats k + if member.roomId = k then 1 else 0 := fun k => seats_insertMember ht
  have hentered : ∀ k, t.entered k = s.entered k + if member.roomId = k then 1 else 0 := fun k => entered_insertMember ht
  have hadmits : ∀ {k room productId p}, s.Admits k room productId p → t.Admits k room productId p := fun h =>
    admits_insertMember ht h
  have hseat : ∀ k p, t.seat k p = if (k, p) = member.key then some { member with id := s.nextMember } else s.seat k p :=
    fun k p => seat_insertMember ht
  have hnew : s.seat member.roomId member.agentId = none := seat_eq_none_of_insertMember ht
  have hgates := hgates hnew
  obtain ⟨members, hroom, -, rfl⟩ := insertMember_eq_some ht
  have hheld := hheld.resolve_right hroom
  refine ⟨trivial, ⟨fun k hk => hk, fun k => ?_⟩, fun k hk => ?_, fun k p hnone hsome => ?_⟩
  · rw [hseats, hentered]
    omega
  · refine Prod.ext rfl ?_
    have hne : member.roomId ≠ k := fun heq => hk (heq ▸ hheld)
    have hsame : s.entered k + (if member.roomId = k then 1 else 0) = s.entered k := by rw [if_neg hne, Nat.add_zero]
    exact (hentered k).trans hsame
  · rw [hseat] at hsome
    split at hsome
    · rename_i hkey
      obtain ⟨rfl, rfl⟩ := Prod.ext_iff.mp hkey
      intro room hroom
      obtain ⟨hfree, hadmitted⟩ := hgates room hroom
      refine ⟨fun maxMembers hmax => ?_, fun productId hproduct => hadmits (hadmitted productId hproduct)⟩
      refine (hseats member.roomId).trans_le ?_
      rw [if_pos rfl]
      exact hfree maxMembers hmax
    · exact absurd hnone hsome

theorem commits_updateMember (h : s.updateMember member role = some t) : gatesRely.Commits held s t := by
  have hseats : ∀ k, t.seats k = s.seats k := fun k => seats_updateMember h
  obtain ⟨-, members, rfl, hseat⟩ := updateMember_eq_some h
  refine commits_of_nobody (fun _ h => h) (fun _ _ => rfl) rfl (fun k => (hseats k).le) fun k p hnone => ?_
  rw [hseat, hnone]
  exact ite_self _

theorem commits_deleteMember : gatesRely.Commits held s (s.deleteMember member) := by
  refine commits_of_nobody (fun _ h => h) (fun _ _ => rfl) rfl (fun k => seats_deleteMember_le) fun k p hnone => ?_
  rw [seat_deleteMember, hnone]
  rfl

theorem commits_putRoom {f : Room → Room} (hheld : held k ∨ ∀ room, s.rooms k = some room → f room = room) :
    gatesRely.Commits held s (s.putRoom k f) := by
  refine commits_of_nobody (fun j hj => ?_) (fun j hj => ?_) rfl (fun _ => le_rfl) fun _ _ h => h
  · simp only [Store.putRoom, Function.update_apply]
    split
    · rename_i heq
      rw [← heq, hj]
      rfl
    · exact hj
  · simp only [Store.putRoom, Function.update_apply]
    split
    · rename_i heq
      subst heq
      cases hroom : s.rooms j with
      | none => rfl
      | some room => rw [Option.map_some, hheld.resolve_left hj room hroom]
    · rfl

theorem commits_trans (h : gatesRely.Commits held s t) (h' : gatesRely.Commits held t u)
    (hseat : ∀ k p, s.seat k p = none → t.seat k p = none) : gatesRely.Commits held s u :=
  ⟨trivial, gatesRely.trans s t u h.since h'.since, fun k hk => (h'.frame k hk).trans (h.frame k hk),
    fun k p hnone hsome => h'.commits k p (hseat k p hnone) hsome⟩

theorem commits_setRole (h : s.setRole member role = some t) : gatesRely.Commits held s t := by
  unfold Store.setRole at h
  split at h
  · cases h
    exact commits_of_nobody (fun _ h => h) (fun _ _ => rfl) rfl (fun _ => le_rfl) fun _ _ h => h
  · exact commits_updateMember h

theorem seat_setRole (h : s.setRole member role = some t) (hnone : s.seat k p = none) : t.seat k p = none := by
  unfold Store.setRole at h
  split at h
  · cases h
    exact hnone
  · obtain ⟨-, members, rfl, hseat⟩ := updateMember_eq_some h
    rw [hseat, hnone]
    exact ite_self _

theorem commits_transfer_gates {loaded : Room} {outgoing target : RoomMember}
    (hheld : held k ∨ s.rooms k = none ∨
      loaded.ownerId = target.agentId ∧ loaded.ownerType = participantTypeFor target.agentId)
    (h : s.transfer k loaded outgoing target = some t) : gatesRely.Commits held s t := by
  have hroom : gatesRely.Commits held s (s.setOwner k loaded target.agentId) := by
    refine commits_putRoom (hheld.imp_right fun hsame room hroom => ?_)
    rcases hsame with hnone | hsame
    · exact nomatch hnone.symm.trans hroom
    · rw [if_pos hsame.1, if_pos hsame.2]
  unfold Store.transfer at h
  dsimp only at h
  split at h
  · exact commits_trans hroom (commits_setRole h) fun _ _ h => h
  · obtain ⟨v, hv, h⟩ := Option.bind_eq_some_iff.mp h
    exact commits_trans (commits_trans hroom (commits_setRole hv) fun _ _ h => h) (commits_setRole h)
      fun _ _ hnone => seat_setRole hv hnone

end Writes

section Outlines

variable {held : RoomId → Prop} {s : Store}

theorem queuesApprovals_gates : QueuesApprovals gatesRely := fun _ _ _ _ =>
  commits_of_nobody (fun _ h => h) (fun _ _ => rfl) rfl (fun _ => le_rfl) fun _ _ h => h

theorem admits_of_stands {read : EntryRead} {room : Room} {productId : ProductId} {t : Store} (hchecked : read.Checked)
    (hproduct : read.room.requiredSubscriptionProductId = some productId)
    (hstands : read.access.Stands read.roomId read.participant room t) :
    t.Admits read.roomId room productId read.participant := by
  have haccess := hchecked.access
  cases hread : read.access with
  | noProduct =>
    rw [hread] at hstands
    exact hstands.elim
  | unchecked =>
    rw [hread] at hstands
    exact hstands.elim
  | owner =>
    rw [hread] at hstands
    exact .inl hstands
  | subscribed productId' agentId =>
    simp only [hread] at haccess hstands
    obtain ⟨hproduct', hagent⟩ := haccess
    cases hproduct.symm.trans hproduct'
    rw [hagent]
    exact .inr hstands
  | authority userId =>
    simp only [hread] at haccess hstands
    rw [haccess]
    exact .inr hstands

theorem gates_of_stands {read : EntryRead} {t : Store} (hchecked : read.Checked) (hstands : read.Stands t)
    (hnew : t.seat read.roomId read.participant = none) (room : Room) (hroom : t.rooms read.roomId = some room) :
    (∀ maxMembers ∈ room.maxMembers, t.seats read.roomId < maxMembers) ∧
      ∀ productId ∈ room.requiredSubscriptionProductId, t.Admits read.roomId room productId read.participant := by
  obtain ⟨hmax, hproduct⟩ := hstands hnew room hroom
  refine ⟨fun maxMembers hlimit => ?_, fun productId hrequired => ?_⟩
  · obtain ⟨hseats, least, hleast, hle⟩ := hmax maxMembers hlimit
    exact hseats.trans_lt ((hchecked.free least hleast).trans_le hle)
  · have hrequired : room.requiredSubscriptionProductId = some productId := hrequired
    obtain ⟨hsame, haccess⟩ := hproduct (by rw [hrequired]; exact Option.some_ne_none _)
    exact admits_of_stands hchecked (hsame.symm.trans hrequired) haccess

theorem insertsChecked_gates : InsertsChecked gatesRely fun read s => read.Stands s := by
  intro held s read role canInvite _ hchecked held' w t u hheld _ hlater _ hread hu
  refine commits_insertMember (hheld.imp_right (hlater.since.1 _)) hu fun hnew => ?_
  exact gates_of_stands hchecked (of_decide_eq_true (hread trivial)) hnew

theorem insertsLocked_gates : InsertsLocked gatesRely fun read s => read.Admitted s := by
  intro held s₀ s₁ s read role canInvite hheld hroom hcounted hseats hlater _ hchecked held' w t u hheld' hw ht _ hread hu
  have hw' : gatesRely.Later held s₀ w := (hcounted.trans hlater).trans hw
  have hroomNow : w.rooms read.roomId = some read.room := (Prod.ext_iff.mp (hw'.rows _ hheld)).1.trans hroom
  have hheld' := hheld'.resolve_right fun hnone => nomatch hroomNow.symm.trans hnone
  obtain ⟨hroomCommit, hentered⟩ := Prod.ext_iff.mp (ht.rows _ hheld')
  have hroomCommit : t.rooms read.roomId = some read.room := hroomCommit.trans hroomNow
  -- Nobody has entered since the count.
  have hcount : t.seats read.roomId ≤ s₁.seats read.roomId := by
    have hentered : t.entered read.roomId = s₁.entered read.roomId :=
      hentered.trans (Prod.ext_iff.mp ((hlater.trans hw).rows _ hheld)).2
    have hsince := (gatesRely.trans _ _ _ (hlater.trans hw).since ht.since).2 read.roomId
    omega
  refine commits_insertMember (.inl hheld') hu fun hnew room hroom => ?_
  cases hroomCommit.symm.trans hroom
  refine ⟨fun maxMembers hmax => ?_, fun productId hproduct => ?_⟩
  · exact (hcount.trans_eq (hseats maxMembers hmax).symm).trans_lt (hchecked.free maxMembers hmax)
  · have hproduct : read.room.requiredSubscriptionProductId = some productId := hproduct
    have hstands : read.Admitted t := of_decide_eq_true (hread trivial)
    exact admits_of_stands hchecked hproduct (hstands hnew _ hroom (by rw [hproduct]; exact Option.some_ne_none _))

theorem approvesInvites_gates : ApprovesInvites gatesRely fun read s => read.WouldPass s := by
  intro id approval read hk hp _ held w t hheld hlater _ hread
  have hpass : read.WouldPass t := of_decide_eq_true (hread trivial)
  unfold approveRoomInvite
  dsimp only
  cases hu : t.insertMember { id := 0, roomId := approval.roomId, agentId := .agent approval.agentId, canInvite := approval.canInvite } with
  | none => exact queuesApprovals_gates held t _ trivial
  | some u =>
    have hcommits : gatesRely.Commits held t u := by
      refine commits_insertMember (hheld.imp_right (hlater.since.1 _)) hu fun hnew room hroom => ?_
      have hnew : t.seat read.roomId read.participant = none := by
        rw [hk, hp]
        exact hnew
      obtain ⟨hfree, hproduct⟩ := hpass hnew room (hk ▸ hroom)
      refine ⟨fun maxMembers hmax => hk ▸ hfree maxMembers hmax, fun productId hrequired => ?_⟩
      rcases hproduct productId hrequired with howner | ⟨subscription, hmem, rfl, hagent⟩
      · exact .inl (hp ▸ howner)
      · have hagent : subscription.subscriberAgentId = approval.agentId := Participant.agent.inj (hagent.trans hp)
        refine .inr ?_
        show _ ∈ t.subscriptions
        rw [← hagent]
        exact hmem
    exact ⟨hcommits.inv, hcommits.since, hcommits.frame, hcommits.commits⟩

theorem recordRedemption_gates {code : String} {agentId : AgentId} {invite : Invite} {connect : Store → Option Store} {t v : Store}
    (hconnect : ∀ u, connect t = some u → gatesRely.Commits held t u)
    (hv : recordRedemption code agentId invite connect t = some v) : gatesRely.Commits held t v := by
  obtain ⟨u, redemptions, hu, -, rfl⟩ := recordRedemption_eq_some hv
  have hcommits := hconnect u hu
  exact ⟨hcommits.inv, hcommits.since, hcommits.frame, hcommits.commits⟩

variable {roomId : RoomId} {agentId : AgentId} {room : Room} {settings : RoomSettings} {ownsProduct : Bool}

theorem checked_of_read {seats : ℕ} {access : Access}
    (hfree : ∀ maxMembers ∈ room.maxMembers, seats < maxMembers)
    (haccess : access = match room.requiredSubscriptionProductId with
      | none => .noProduct
      | some productId => if room.ownerId = .agent agentId then .owner else .subscribed productId agentId) :
    EntryRead.Checked { roomId, participant := .agent agentId, room, seats, access } := by
  refine ⟨hfree, ?_⟩
  subst haccess
  cases hproduct : room.requiredSubscriptionProductId with
  | none => exact rfl
  | some productId =>
    by_cases howner : room.ownerId = .agent agentId
    · simp only [if_pos howner]
      exact howner
    · simp only [if_neg howner]
      trivial

theorem sound_redeem_gates {code : String} :
    (redeemInviteForAgent (fun _ agentId read s => ∀ entry ∈ read.entry agentId, entry.Stands s) code agentId).Sound
      gatesRely held s := by
  refine sound_redeemInviteForAgent (fun t _ => commits_of_nobody (fun _ h => h) (fun _ _ => rfl) rfl (fun _ => le_rfl)
    fun _ _ h => h) ?_ ?_
  · intro s₀ t _ invite _ _ _ _ _ _
    refine recordRedemption_gates fun u hu => ?_
    obtain ⟨v, hv, hu⟩ := Option.bind_eq_some_iff.mp hu
    obtain ⟨-, hv⟩ := Option.ite_none_right_eq_some.mp hv
    obtain ⟨-, hu⟩ := Option.ite_none_right_eq_some.mp hu
    cases hv
    cases hu
    exact commits_of_nobody (fun _ h => h) (fun _ _ => rfl) rfl (fun _ => le_rfl) fun _ _ h => h
  · intro held' s₀ w t _ invite roomId room seats _ hkind _ hheld hlater _ _ hfree hread
    refine recordRedemption_gates fun u hu => ?_
    have hchecked := @checked_of_read roomId agentId room seats _ hfree rfl
    have hstands := of_decide_eq_true (hread trivial) _ (by rw [Read.entry, hkind]; rfl)
    exact commits_insertMember (hheld.imp_right (hlater.since.1 _)) hu fun hnew => gates_of_stands hchecked hstands hnew

theorem sound_leaveRoom_gates :
    (Personal.leaveRoom (fun _ _ => true) roomId agentId).Sound gatesRely held s := by
  refine sound_loadRoomWithMembers fun _ _ _ _ _ _ _ _ => sound_requireMembership fun member _ _ _ => .require fun _ => ?_
  refine .commit fun t _ _ _ u hu => ?_
  cases hu
  exact commits_deleteMember

theorem sound_putSettings {loaded : Room}
    (hheld : held roomId ∨ s.rooms roomId = none) : (putSettings roomId settings loaded).Sound gatesRely held s := by
  refine .commit fun t ht _ _ u hu => ?_
  cases hu
  refine commits_putRoom (hheld.imp_right fun hnone room hroom => ?_)
  exact nomatch (ht.since.1 roomId hnone).symm.trans hroom

theorem sound_putCheckedSettings {members : List RoomMember}
    (hheld : held roomId ∨ s.rooms roomId = none) :
    (putCheckedSettings roomId settings room members ownsProduct).Sound gatesRely held s := by
  refine .require fun _ => ?_
  split
  · exact sound_putSettings hheld
  · split
    · exact sound_putSettings hheld
    · exact .select fun t ht _ => .require fun _ => sound_putSettings (hheld.imp_right (ht.since.1 roomId))

theorem sound_updateRoom {currentAgent : AgentId} :
    (updateRoom roomId currentAgent settings ownsProduct).Sound gatesRely held s := by
  refine sound_loadRoomWithMembers fun t u room _ _ _ _ _ => sound_requireMembership fun caller _ _ _ => .require fun _ => ?_
  split
  · refine .commit fun v _ _ _ w hw => ?_
    cases hw
    exact commits_of_nobody (fun _ h => h) (fun _ _ => rfl) rfl (fun _ => le_rfl) fun _ _ h => h
  · exact sound_waitForRoom (fun v _ _ hnone => sound_putCheckedSettings (.inr hnone)) fun v _ _ =>
      sound_putCheckedSettings (.inl (.inr rfl))

theorem sound_updateRoomSettingsAsHuman {userId : UserId} :
    (updateRoomSettingsAsHuman roomId userId settings ownsProduct).Sound gatesRely held s :=
  sound_loadRoomMemberAsCaller fun _ _ _ _ _ _ _ _ => sound_effectiveHumanRoomRole fun _ _ _ _ =>
    .require fun _ => .require fun _ => .require fun _ => sound_putSettings (.inl (.inr rfl))

theorem sound_transferOwnership_gates {currentAgent : AgentId} {newOwner : Participant} :
    (transferOwnership (fun _ _ _ _ => true) roomId currentAgent newOwner ownsProduct).Sound gatesRely held s := by
  refine sound_loadRoomWithMembers fun t u room _ _ _ _ _ => sound_requireMembership fun caller _ _ _ =>
    .require fun _ => .require fun _ => ?_
  split
  · trivial
  · rename_i target htarget
    obtain ⟨-, rfl⟩ := findRoomMember_eq_some htarget
    refine .require fun _ => ?_
    dsimp only
    split
    · rename_i hsame
      exact .commit fun v _ _ _ w hw => commits_transfer_gates (.inr (.inr hsame)) hw
    · refine sound_waitForRoom (fun v _ _ hnone => ?_) fun v _ _ => ?_
      · exact .commit fun w hw _ _ x hx => commits_transfer_gates (.inr (.inl (hw.since.1 roomId hnone))) hx
      · exact .commit fun w _ _ _ x hx => commits_transfer_gates (.inl (.inr rfl)) hx

theorem sound_transferRoomOwnershipAsHuman_gates {userId : UserId} {newOwner : Participant} :
    (transferRoomOwnershipAsHuman roomId userId newOwner).Sound gatesRely held s := by
  refine sound_loadRoomMemberAsCaller fun t u room caller _ _ _ _ => sound_effectiveHumanRoomRole fun v role _ _ =>
    .require fun _ => .require fun _ => sound_loadMember fun w _ _ => sound_ofOwnType fun target _ => ?_
  have hcommit : ∀ {x outgoing}, (Program.commit (fun _ => true) fun s =>
      s.transfer roomId room outgoing target : Call).Sound gatesRely (fun x => held x ∨ x = roomId) x :=
    fun {x outgoing} => .commit fun y _ _ _ z hz => commits_transfer_gates (.inl (.inr rfl)) hz
  have hsubscribed : ∀ {x}, ((if room.ownerId ≠ caller.agentId then
      loadMember roomId room.ownerId fun current => .commit (fun _ => true) fun s => s.transfer roomId room (current.getD caller) target
      else .commit (fun _ => true) fun s => s.transfer roomId room caller target : Call)).Sound gatesRely
        (fun x => held x ∨ x = roomId) x := by
    intro x
    split
    · exact sound_loadMember fun _ _ _ => hcommit
    · exact hcommit
  dsimp only
  split
  · exact .select fun _ _ _ => .require fun _ => hsubscribed
  · exact hsubscribed

theorem sound_entryProgram (request : EntryRequest) : (request.program s).Sound gatesRely held s := by
  cases request with
  | addMember roomId currentAgent target canInvite admitted approvalId =>
    exact sound_addMember queuesApprovals_gates insertsChecked_gates
  | joinRoomAsHuman roomId userId => exact sound_joinRoomAsHuman insertsLocked_gates
  | inviteRoomMemberAsHuman roomId userId participant role admitted approvalId =>
    exact sound_inviteRoomMemberAsHuman queuesApprovals_gates insertsLocked_gates
  | resolveRoomInvite approvalId userId approve => exact sound_resolveRoomInvite queuesApprovals_gates approvesInvites_gates
  | redeemInviteForAgent code agentId => exact sound_redeem_gates
  | updateRoom roomId currentAgent settings ownsProduct => exact sound_updateRoom
  | updateRoomSettingsAsHuman roomId userId settings ownsProduct => exact sound_updateRoomSettingsAsHuman
  | transferOwnership roomId currentAgent newOwner ownsProduct => exact sound_transferOwnership_gates
  | transferRoomOwnershipAsHuman roomId userId newOwner => exact sound_transferRoomOwnershipAsHuman_gates
  | leaveRoom roomId agentId => exact sound_leaveRoom_gates

theorem entryEvent_kept (event : EntryEvent) : gatesRely.Later held s (event.apply s) ∧
    ∀ k p, s.seat k p = none → (event.apply s).seat k p = none := by
  cases event with
  | expel member =>
    refine ⟨⟨fun _ _ => rfl, (show gatesRely.Commits held s (s.deleteMember member) from commits_deleteMember).since⟩, fun k p hnone => ?_⟩
    refine seat_deleteMember.trans ?_
    rw [hnone]
    rfl
  | promote member role =>
    simp only [EntryEvent.apply]
    cases ht : s.updateMember member role with
    | none => exact ⟨.refl, fun _ _ h => h⟩
    | some t =>
      have hcommits : gatesRely.Commits held s t := commits_updateMember ht
      obtain ⟨-, members, rfl, hseat⟩ := updateMember_eq_some ht
      refine ⟨⟨fun _ _ => rfl, hcommits.since⟩, fun k p hnone => ?_⟩
      exact (hseat k p).trans (by rw [hnone]; exact ite_self _)
  | _ => exact ⟨⟨fun _ _ => rfl, fun _ h => h, fun _ => le_rfl⟩, fun _ _ h => h⟩

end Outlines

section Runs

variable {start : Store} {d d' : Calls Store RoomId}

theorem kept_entryStep {a : CallAction EntryRequest EntryEvent} (h : Calls.Kept gatesRely d) (hread : d.AsRead a)
    (hstep : entries.step d a = some d') : Calls.Kept gatesRely d' ∧
      ∀ k p, d.committed.seat k p = none → d'.committed.seat k p ≠ none → d'.committed.Gated k p := by
  obtain ⟨hkept, hmoved⟩ := Calls.Kept.step (fun request s _ => sound_entryProgram request)
    (fun event s _ => ⟨trivial, fun _ => (entryEvent_kept event).1⟩) h (fun _ => hread) hstep
  refine ⟨hkept, ?_⟩
  generalize d'.committed = t at hmoved
  cases hmoved with
  | same => exact fun k p hnone hsome => absurd hnone hsome
  | commits hgated => exact hgated
  | outside event => exact fun k p hnone hsome => absurd ((@entryEvent_kept (fun _ => False) _ event).2 k p hnone) hsome

/-- In every run from any tables in which the gates that a call of an agent has read are no narrower when it inserts, with no more members there, a call of a human finds its participant let in still where the room requires a product, and an approved agent would pass both gates: whoever enters a room leaves it within its limit, and where it requires a product is its owner, a subscribed agent or a human with authority. -/
theorem entries_pass_the_gates {actions : List (CallAction EntryRequest EntryEvent)}
    (hmeets : entries.Meets Calls.AsRead { committed := start } actions)
    (hrun : entries.run { committed := start } actions = some d) {a : CallAction EntryRequest EntryEvent} (hread : d.AsRead a)
    (hstep : entries.step d a = some d') (member : RoomMember) (hentered : member ∈ d'.committed.members)
    (hnew : ∀ m ∈ d.committed.members, m.key ≠ member.key) (room : Room)
    (hroom : d'.committed.rooms member.roomId = some room) :
    (∀ maxMembers ∈ room.maxMembers, d'.committed.seats member.roomId ≤ maxMembers) ∧
    ∀ productId ∈ room.requiredSubscriptionProductId, member.agentId = room.ownerId ∨
      (∃ agentId, member.agentId = .agent agentId ∧ d'.committed.Subscribed productId agentId) ∨
      ∃ userId, member.agentId = .human userId ∧ d'.committed.HasAuthority member.roomId room userId := by
  have hkept : Calls.Kept gatesRely d := entries.run_invariant_of_meets
    (fun _ _ _ hkept hread hstep => (kept_entryStep hkept hread hstep).1) (.start trivial) hmeets hrun
  have hnone : d.committed.seat member.roomId member.agentId = none := Keyed.get?_eq_none_iff.mpr hnew
  have hsome : d'.committed.seat member.roomId member.agentId = some member := Keyed.get?_key hentered
  obtain ⟨hlimit, hproduct⟩ := (kept_entryStep hkept hread hstep).2 _ _ hnone (by rw [hsome]; exact Option.some_ne_none _)
    room hroom
  refine ⟨hlimit, fun productId hrequired => (hproduct productId hrequired).imp_right fun hadmitted => ?_⟩
  cases hp : member.agentId with
  | agent agentId =>
    rw [hp] at hadmitted
    exact .inl ⟨agentId, rfl, hadmitted⟩
  | human userId =>
    rw [hp] at hadmitted
    exact .inr ⟨userId, rfl, hadmitted⟩

/-- A room of agent 0 for two that requires a product, a claimed agent 1 and an unclaimed agent 2 that is subscribed. -/
def roomForTwo : Store where
  agents := fun agentId => if agentId = "ag_1" then some (some 7) else if agentId = "ag_2" then some none else none
  rooms := fun roomId => if roomId = "rm_a" then
    some { ownerId := .agent "ag_0", maxMembers := some 2, requiredSubscriptionProductId := some "pr_a" } else none
  members := { rows := [{ id := 0, roomId := "rm_a", agentId := .agent "ag_0", role := .owner }], distinct := by decide }
  subscriptions := [{ productId := "pr_a", subscriberAgentId := "ag_2" }]

/-- Agent 0 invites both. Agent 2 enters, and then the human of agent 1 approves. -/
def approvedInvite : List (CallAction EntryRequest EntryEvent) :=
  [.call 1 (.addMember "rm_a" "ag_0" (some (.agent "ag_1")) none true 0), .next 1, .next 1, .next 1, .next 1,
    .call 2 (.addMember "rm_a" "ag_0" (some (.agent "ag_2")) none true 1), .next 2, .next 2, .next 2, .next 2, .next 2, .next 2,
    .call 3 (.resolveRoomInvite 0 7 true), .next 3, .next 3, .next 3]

/-- Both gates fail: three members in a room for two, and an agent without a subscription. -/
theorem approved_into_full_room : ∃ d d' member room, entries.run { committed := roomForTwo } approvedInvite = some d ∧
    entries.step d (.next 3) = some d' ∧ member ∈ d'.committed.members ∧ (∀ m ∈ d.committed.members, m.key ≠ member.key) ∧
    d'.committed.rooms member.roomId = some room ∧ room.maxMembers = some 2 ∧ d'.committed.seats member.roomId = 3 ∧
    room.requiredSubscriptionProductId = some "pr_a" ∧ member.agentId = .agent "ag_1" ∧ member.agentId ≠ room.ownerId ∧
    ¬ d'.committed.Subscribed "pr_a" "ag_1" := by
  have hrun : (entries.run { committed := roomForTwo } approvedInvite).any (fun d => (entries.step d (.next 3)).any fun d' =>
      ∃ member ∈ d'.committed.members.rows, (∀ m ∈ d.committed.members.rows, m.key ≠ member.key) ∧
        (∃ room ∈ d'.committed.rooms member.roomId, room.maxMembers = some 2 ∧
          room.requiredSubscriptionProductId = some "pr_a" ∧ member.agentId ≠ room.ownerId) ∧
        d'.committed.seats member.roomId = 3 ∧ member.agentId = .agent "ag_1" ∧
        ¬ d'.committed.Subscribed "pr_a" "ag_1") = true := by
    decide +kernel
  obtain ⟨d, hrun, hd⟩ := Option.any_eq_true _ _ |>.mp hrun
  obtain ⟨d', hstep, hd'⟩ := Option.any_eq_true _ _ |>.mp hd
  obtain ⟨member, hmem, hnew, ⟨room, hroom, hmax, hproduct, howner⟩, hseats, hagent, hnot⟩ := of_decide_eq_true hd'
  exact ⟨d, d', member, room, hrun, hstep, hmem, hnew, hroom, hmax, hseats, hproduct, hagent, howner, hnot⟩

/-- Agent 2 alone. -/
theorem subscribed_into_room_for_two : ∃ d d' member room, entries.run { committed := roomForTwo }
      [.call 2 (.addMember "rm_a" "ag_0" (some (.agent "ag_2")) none true 1), .next 2, .next 2, .next 2, .next 2, .next 2] =
        some d ∧
    entries.step d (.next 2) = some d' ∧ member ∈ d'.committed.members ∧ member.agentId = .agent "ag_2" ∧
    d'.committed.rooms member.roomId = some room ∧ (∀ maxMembers ∈ room.maxMembers, d'.committed.seats member.roomId ≤ maxMembers) ∧
    ∀ productId ∈ room.requiredSubscriptionProductId, member.agentId = room.ownerId ∨
      (∃ agentId, member.agentId = .agent agentId ∧ d'.committed.Subscribed productId agentId) ∨
      ∃ userId, member.agentId = .human userId ∧ d'.committed.HasAuthority member.roomId room userId := by
  have hrun : (entries.run { committed := roomForTwo }
      [.call 2 (.addMember "rm_a" "ag_0" (some (.agent "ag_2")) none true 1), .next 2, .next 2, .next 2, .next 2, .next 2]).any
        (fun d => d.AsRead (.next 2 : CallAction EntryRequest EntryEvent) ∧ (entries.step d (.next 2)).any (fun d' =>
          ∃ member ∈ d'.committed.members.rows, (∀ m ∈ d.committed.members.rows, m.key ≠ member.key) ∧
            (d'.committed.rooms member.roomId).isSome = true ∧ member.agentId = .agent "ag_2") = true) = true := by
    decide +kernel
  obtain ⟨d, hrun, hd⟩ := Option.any_eq_true _ _ |>.mp hrun
  obtain ⟨hread, hd⟩ := of_decide_eq_true hd
  obtain ⟨d', hstep, hd'⟩ := Option.any_eq_true _ _ |>.mp hd
  obtain ⟨member, hmem, hnew, hroom, hagent⟩ := of_decide_eq_true hd'
  obtain ⟨room, hroom⟩ := Option.isSome_iff_exists.mp hroom
  obtain ⟨hlimit, hproduct⟩ := entries_pass_the_gates (by decide +kernel) hrun hread hstep member hmem hnew room hroom
  exact ⟨d, d', member, room, hrun, hstep, hmem, hagent, hroom, hlimit, hproduct⟩

end Runs

end BotCord.Personal
