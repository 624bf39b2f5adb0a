import BotCord.Rooms.Service

/-!
# Who sits in the rooms of an organization

A call that holds the space sees its members as they are until it commits. `join_room`, `add_members` and `add_agent` do not hold it, and `remove_user` and `remove_agent` delete the seats that they find before they commit; where no membership changes under the former and no seat is taken behind the latter, and no agent of another space redeems an invite, everyone in a room of an organization is an active member.
-/

namespace BotCord.Rooms

open Spaces (UserId SpaceId AgentId MembershipId Space MembershipStatus)
open Members

structure Inv (s : Store) : Prop where
  seated : ∀ m ∈ s.members, ∃ room, s.rooms m.roomId = some room ∧ s.MaySit room m.participant
  dm : ∀ k pair room, s.rooms (.dm k pair) = some room → room.spaceId = some k
  approvals : ∀ approvalId approval, s.approvals approvalId = some approval →
    ∀ roomId, approval.roomId = some roomId → (s.rooms roomId).isSome

def Since (s t : Store) : Prop := ∀ roomId room, s.rooms roomId = some room → t.rooms roomId = some room

/-- What a calls trusts is that the memberships it has read and the seats it has deleted are still all there are. -/
def rely : Rely Store Row where
  β
    | .space _ => Option Space × (UserId → Option Membership) × (AgentId → Option AgentMembership)
    | .room _ => Unit
  row
    | .space k => fun s => (s.spaces k, s.memberships k, s.agentMembership k)
    | .room _ => fun _ => ()
  inv := Inv
  since := Since
  commits _ _ := True
  trusted := True
  refl _ _ _ h := h
  trans _ _ _ h h' roomId room hroom := h' roomId room (h roomId room hroom)

variable {held : Row → Prop} {s t u : Store} {k : SpaceId} {userId : UserId} {roomId : RoomId}

theorem Later.memberships (h : rely.Later held s t) (hheld : held (.space k)) : t.memberships k = s.memberships k :=
  congrArg (fun row : Option Space × (UserId → Option Membership) × (AgentId → Option AgentMembership) => row.2.1)
    (h.rows (.space k) hheld)

theorem Later.agentMembership (h : rely.Later held s t) (hheld : held (.space k)) :
    t.agentMembership k = s.agentMembership k :=
  congrArg (fun row : Option Space × (UserId → Option Membership) × (AgentId → Option AgentMembership) => row.2.2)
    (h.rows (.space k) hheld)

variable {p : Participant}

theorem active_congr (hm : t.memberships k = s.memberships k) (ha : t.agentMembership k = s.agentMembership k)
    (h : s.Active k p) : t.Active k p := by
  cases p with
  | human userId => simpa only [Store.Active, hm] using h
  | agent agentId => simpa only [Store.Active, ha] using h

theorem Later.active (h : rely.Later held s t) (hheld : held (.space k)) (hp : s.Active k p) :
    t.Active k p := active_congr (Later.memberships h hheld) (Later.agentMembership h hheld) hp

theorem Commits.trans (h : rely.Commits held s t) (h' : rely.Commits held t u) : rely.Commits held s u where
  inv := h'.inv
  since := rely.trans s t u h.since h'.since
  frame r hr := (h'.frame r hr).trans (h.frame r hr)
  commits := trivial

theorem agentMembership_congr (ha : t.agentMemberships = s.agentMemberships) (k : SpaceId) :
    t.agentMembership k = s.agentMembership k := by
  funext agentId
  rw [Store.agentMembership, Store.agentMembership, ha]

theorem row_congr (hspaces : t.spaces = s.spaces) (hm : t.memberships = s.memberships)
    (ha : t.agentMemberships = s.agentMemberships) (r : Row) : rely.row r t = rely.row r s := by
  cases r with
  | space k => simp only [rely, hspaces, hm, agentMembership_congr ha]
  | room roomId => rfl

theorem commits_of_same (hinv : Inv t) (hsince : Since s t) (hspaces : t.spaces = s.spaces)
    (hm : t.memberships = s.memberships) (ha : t.agentMemberships = s.agentMemberships) : rely.Commits held s t where
  inv := hinv
  since := hsince
  frame r _ := row_congr hspaces hm ha r
  commits := trivial

variable {room : Room}

theorem maySit_congr (hm : t.memberships = s.memberships) (ha : t.agentMemberships = s.agentMemberships)
    (h : s.MaySit room p) : t.MaySit room p := fun k hk =>
  active_congr (congrFun hm k) (agentMembership_congr ha k) (h k hk)

theorem addMember_eq_some {m : RoomMember} (h : s.addMember m = some t) :
    t = { s with members := s.members ++ [m] } ∧ ∃ room, s.rooms m.roomId = some room := by
  obtain ⟨⟨hroom, -⟩, ht⟩ := Option.ite_none_right_eq_some.mp h
  exact ⟨(Option.some.inj ht).symm, Option.isSome_iff_exists.mp hroom⟩

theorem addMembers_eq_some {ms : List RoomMember} (h : s.addMembers ms = some t) :
    t = { s with members := s.members ++ ms } ∧ ∀ m ∈ ms, ∃ room, s.rooms m.roomId = some room := by
  induction ms generalizing s with
  | nil =>
    cases h
    refine ⟨?_, fun m hm => by cases hm⟩
    rw [List.append_nil]
  | cons m rest ih =>
    obtain ⟨next, hnext, hrest⟩ := Option.bind_eq_some_iff.mp h
    obtain ⟨rfl, hroom⟩ := addMember_eq_some hnext
    obtain ⟨rfl, hrooms⟩ := ih hrest
    refine ⟨?_, fun x hx => ?_⟩
    · rw [List.append_assoc, List.singleton_append]
    · cases List.mem_cons.mp hx with
      | inl heq => exact heq ▸ hroom
      | inr hmem => exact hrooms x hmem

theorem addMember_eq (s : Store) (m : RoomMember) : s.addMember m = s.addMembers [m] := by
  simp [Store.addMembers]

theorem commits_addMembers (hinv : Inv s) {ms : List RoomMember} (h : s.addMembers ms = some t)
    (hsit : ∀ m ∈ ms, ∀ room, s.rooms m.roomId = some room → s.MaySit room m.participant) :
    rely.Commits held s t := by
  obtain ⟨rfl, hrooms⟩ := addMembers_eq_some h
  refine commits_of_same ⟨fun m hm => ?_, hinv.dm, hinv.approvals⟩ (fun _ _ hroom => hroom) rfl rfl rfl
  cases List.mem_append.mp hm with
  | inl hold => exact hinv.seated m hold
  | inr hnew =>
    obtain ⟨room, hroom⟩ := hrooms m hnew
    exact ⟨room, hroom, hsit m hnew room hroom⟩

theorem commits_addMember (hinv : Inv s) {m : RoomMember} (h : s.addMember m = some t)
    (hsit : ∀ room, s.rooms m.roomId = some room → s.MaySit room m.participant) : rely.Commits held s t := by
  rw [addMember_eq] at h
  refine commits_addMembers hinv h fun x hx => ?_
  rw [List.mem_singleton] at hx
  exact hx ▸ hsit

theorem since_insertRoom (h : s.insertRoom roomId room = some t) :
    Since s t ∧ t = { s with rooms := Function.update s.rooms roomId (some room) } := by
  obtain ⟨hnew, ht⟩ := Option.ite_none_right_eq_some.mp h
  cases ht
  refine ⟨fun other found hfound => ?_, rfl⟩
  have hne : other ≠ roomId := by
    intro heq
    rw [heq, hnew] at hfound
    cases hfound
  exact (Function.update_of_ne hne ..).trans hfound

theorem later_insertRoom (h : s.insertRoom roomId room = some t) : rely.Later held s t := by
  obtain ⟨hsince, heq⟩ := since_insertRoom h
  exact ⟨fun r _ => row_congr (by rw [heq]) (by rw [heq]) (by rw [heq]) r, hsince⟩

theorem commits_insertRoom (hinv : Inv s) (h : s.insertRoom roomId room = some t)
    (hdm : ∀ k pair, roomId = .dm k pair → room.spaceId = some k) :
    rely.Commits held s t ∧ t.rooms roomId = some room := by
  obtain ⟨hsince, rfl⟩ := since_insertRoom h
  refine ⟨commits_of_same ⟨fun m hm => ?_, fun k pair found hfound => ?_, fun approvalId approval happroval r hr => ?_⟩
    hsince rfl rfl rfl, Function.update_self ..⟩
  · obtain ⟨found, hfound, hsit⟩ := hinv.seated m hm
    exact ⟨found, hsince _ _ hfound, maySit_congr rfl rfl hsit⟩
  · by_cases heq : RoomId.dm k pair = roomId
    · have hroom : found = room := by
        rw [heq] at hfound
        exact Option.some.inj (hfound.symm.trans (Function.update_self ..))
      exact hroom ▸ hdm k pair heq.symm
    · exact hinv.dm k pair found ((Function.update_of_ne heq ..).symm.trans hfound)
  · obtain ⟨found, hfound⟩ := Option.isSome_iff_exists.mp (hinv.approvals approvalId approval happroval r hr)
    exact Option.isSome_iff_exists.mpr ⟨found, hsince _ _ hfound⟩

theorem commits_dropMembers (hinv : Inv s) (dropped : RoomMember → Prop) [DecidablePred dropped] :
    rely.Commits held s (s.dropMembers dropped) :=
  commits_of_same ⟨fun m hm => hinv.seated m (List.mem_of_mem_filter hm), hinv.dm, hinv.approvals⟩
    (fun _ _ h => h) rfl rfl rfl

theorem commits_putInvite (hinv : Inv s) (code : String) (invite : Invite) :
    rely.Commits held s (s.putInvite code invite) :=
  commits_of_same ⟨hinv.seated, hinv.dm, hinv.approvals⟩ (fun _ _ h => h) rfl rfl rfl

variable {agentId : AgentId}

theorem commits_recordRedemption (hinv : Inv s) {code : String} {invite : Invite}
    (h : s.recordRedemption code invite agentId = some t) : rely.Commits held s t := by
  unfold Store.recordRedemption at h
  split at h
  · cases h
  · cases h
    exact commits_of_same ⟨hinv.seated, hinv.dm, hinv.approvals⟩ (fun _ _ h => h) rfl rfl rfl

theorem commits_putApproval (hinv : Inv s) (approvalId : ℕ) {approval : Approval}
    (hroom : ∀ roomId, approval.roomId = some roomId → (s.rooms roomId).isSome) :
    rely.Commits held s (s.putApproval approvalId approval) := by
  refine commits_of_same ⟨hinv.seated, hinv.dm, fun other found hfound => ?_⟩ (fun _ _ h => h) rfl rfl rfl
  by_cases heq : other = approvalId
  · subst heq
    have hself : (s.putApproval other approval).approvals other = some approval := Function.update_self ..
    cases hself.symm.trans hfound
    exact hroom
  · exact hinv.approvals other found ((Function.update_of_ne heq ..).symm.trans hfound)

/-- Under the lock of a space its memberships change; whoever sits in its rooms after it is a member still. -/
theorem commits_memberships (hinv : Inv s) (hheld : held (.space k)) (hrooms : t.rooms = s.rooms)
    (happrovals : t.approvals = s.approvals) (hspaces : t.spaces = s.spaces)
    (hm : ∀ k', k' ≠ k → t.memberships k' = s.memberships k')
    (ha : ∀ k', k' ≠ k → t.agentMembership k' = s.agentMembership k')
    (hkept : ∀ m ∈ t.members, m ∈ s.members ∧
      ((s.roomOf k m.roomId).isSome → s.Active k m.participant → t.Active k m.participant)) :
    rely.Commits held s t where
  inv := by
    refine ⟨fun m hmem => ?_, hrooms ▸ hinv.dm, ?_⟩
    · obtain ⟨hold, hstill⟩ := hkept m hmem
      obtain ⟨room, hroom, hsit⟩ := hinv.seated m hold
      refine ⟨room, hrooms ▸ hroom, fun k' hk' => ?_⟩
      by_cases hk : k' = k
      · subst hk
        refine hstill ?_ (hsit k' hk')
        have hspace : room.spaceId = some k' := hk'
        simp [Store.roomOf, hroom, hspace]
      · exact active_congr (hm k' hk) (ha k' hk) (hsit k' hk')
    · rw [happrovals, hrooms]
      exact hinv.approvals
  since := fun _ _ h => hrooms ▸ h
  frame r hr := by
    cases r with
    | space k' =>
      have hk : k' ≠ k := fun hk => hr (hk ▸ hheld)
      simp only [rely, hspaces, hm k' hk, ha k' hk]
    | room roomId => rfl
  commits := trivial

theorem memberships_putMembership {m : Membership} (k' : SpaceId) :
    (s.putMembership k userId m).memberships k' =
      if k' = k then Function.update (s.memberships k) userId (some m) else s.memberships k' :=
  Function.update_apply ..

theorem commits_putMembership (hinv : Inv s) (hheld : held (.space k)) {m : Membership}
    (hinactive : ¬ s.Active k (.human userId)) : rely.Commits held s (s.putMembership k userId m) := by
  refine commits_memberships hinv hheld rfl rfl rfl (fun k' hk => ?_) (fun _ _ => rfl) fun x hx => ⟨hx, fun _ hactive => ?_⟩
  · rw [memberships_putMembership, if_neg hk]
  · cases hp : x.participant with
    | agent agentId =>
      rw [hp] at hactive
      exact hactive
    | human other =>
      rw [hp] at hactive
      have hne : other ≠ userId := fun heq => hinactive (heq ▸ hactive)
      simpa only [Store.Active, memberships_putMembership, if_true, Function.update_of_ne hne] using hactive

theorem agentMembership_putAgentMemberships {p : AgentMembership → Prop} [DecidablePred p]
    {f : AgentMembership → AgentMembership} (hf : ∀ m, (f m).key = m.key) (k' : SpaceId) (agentId : AgentId) :
    (s.putAgentMemberships p f hf).agentMembership k' agentId =
      (s.agentMembership k' agentId).map fun m => if p m then f m else m := Keyed.get?_modify hf _

variable {m : AgentMembership}

theorem spaceId_of_agentMembership (h : s.agentMembership k agentId = some m) :
    m.spaceId = k ∧ m.agentId = agentId := Prod.mk.inj (Keyed.get?_eq_some_iff.mp h).2

/-- Agent memberships of the held space are rewritten; an agent who does not stay active has no seat there. -/
theorem commits_putAgentMemberships (hinv : Inv s) (hheld : held (.space k)) {p : AgentMembership → Prop} [DecidablePred p]
    {f : AgentMembership → AgentMembership} (hf : ∀ m, (f m).key = m.key) (hspace : ∀ m, p m → m.spaceId = k)
    (hseats : ∀ x ∈ s.members, (s.roomOf k x.roomId).isSome → ∀ agentId m, x.participant = .agent agentId →
      s.agentMembership k agentId = some m → p m → m.status = .active → (f m).status = .active) :
    rely.Commits held s (s.putAgentMemberships p f hf) := by
  refine commits_memberships hinv hheld rfl rfl rfl (fun _ _ => rfl) (fun k' hk => funext fun agentId => ?_)
    fun x hx => ⟨hx, fun hroom hactive => ?_⟩
  · rw [agentMembership_putAgentMemberships]
    cases hm : s.agentMembership k' agentId with
    | none => rfl
    | some m =>
      have hp : ¬ p m := fun hp => hk ((spaceId_of_agentMembership hm).1.symm.trans (hspace m hp))
      rw [Option.map_some, if_neg hp]
  · cases hparticipant : x.participant with
    | human other =>
      rw [hparticipant] at hactive
      exact hactive
    | agent agentId =>
      rw [hparticipant] at hactive
      obtain ⟨m, hm, hstatus⟩ := hactive
      refine ⟨if p m then f m else m, ?_, ?_⟩
      · rw [agentMembership_putAgentMemberships, hm]
        rfl
      · split
        · rename_i hp
          exact hseats x hx hroom agentId m hparticipant hm hp hstatus
        · exact hstatus

theorem commits_insertAgentMembership (hinv : Inv s) (hheld : held (.space m.spaceId))
    {table : Keyed AgentMembership.key} (h : s.agentMemberships.insert? m = some table) :
    rely.Commits held s { s with agentMemberships := table } := by
  have hadds := Keyed.insert?_eq_some h
  have hfound : ∀ k agentId, Store.agentMembership { s with agentMemberships := table } k agentId =
      if (k, agentId) = m.key then some m else s.agentMembership k agentId := fun k agentId => hadds.get?
  refine commits_memberships (k := m.spaceId) hinv hheld rfl rfl rfl (fun _ _ => rfl)
    (fun k' hk => funext fun agentId => ?_) fun x hx => ⟨hx, fun _ hactive => ?_⟩
  · have hne : (k', agentId) ≠ m.key := fun heq => hk (congrArg Prod.fst heq)
    rw [hfound, if_neg hne]
  · cases hparticipant : x.participant with
    | human other =>
      rw [hparticipant] at hactive
      exact hactive
    | agent agentId =>
      rw [hparticipant] at hactive
      obtain ⟨old, hold, hstatus⟩ := hactive
      refine ⟨old, (hfound m.spaceId agentId).trans ?_, hstatus⟩
      rw [if_neg]
      · exact hold
      · intro heq
        obtain ⟨hmem, hkey⟩ := Keyed.get?_eq_some_iff.mp hold
        exact hadds.new old hmem (hkey.trans heq)

/-- Some members of the held space end, and the seats that they had in its rooms are deleted. -/
theorem commits_dropped (hinv : Inv s) (hheld : held (.space k)) {left : List Participant} {dropped : List RoomMember}
    (hmembers : t.members = s.members) (hrooms : t.rooms = s.rooms) (happrovals : t.approvals = s.approvals)
    (hspaces : t.spaces = s.spaces) (hm : ∀ k', k' ≠ k → t.memberships k' = s.memberships k')
    (ha : ∀ k', k' ≠ k → t.agentMembership k' = s.agentMembership k')
    (hactive : ∀ p, p ∉ left → s.Active k p → t.Active k p) (hswept : ∀ m ∈ s.seatsIn k left, m ∈ dropped) :
    rely.Commits held s (t.dropMembers (· ∈ dropped)) := by
  refine commits_memberships hinv hheld hrooms happrovals hspaces hm ha fun x hx => ?_
  obtain ⟨hmem, hkept⟩ := List.mem_filter.mp hx
  rw [hmembers] at hmem
  refine ⟨hmem, fun hroom hstanding => hactive x.participant (fun hleft => ?_) hstanding⟩
  have hseat : x ∈ s.seatsIn k left := List.mem_filter.mpr ⟨hmem, by simpa using ⟨hroom, hleft⟩⟩
  simp [hswept x hseat] at hkept

theorem sound_write {f : Store → Option Store}
    (h : ∀ t, rely.Later held s t → Inv t → ∀ u, f t = some u → rely.Commits held t u) :
    (write f).Sound rely held s := fun t ht hinv _ => h t ht hinv

theorem sound_finish : (Program.finish : Call).Sound rely held s := by
  intro t _ hinv _ u hu
  cases hu
  exact commits_of_same hinv (fun _ _ h => h) rfl rfl rfl

theorem sound_clock {next : Spaces.Instant → Call} (h : ∀ now, (next now).Sound rely held s) :
    (clock next).Sound rely held s := fun _ ht _ => (h _).later ht

theorem sound_humanId {next : Call} (h : next.Sound rely held s) : (humanId userId next).Sound rely held s :=
  fun _ ht _ => .require fun _ => h.later ht

theorem sound_memberRow {next : Option RoomMember → Call} (h : ∀ found, (next found).Sound rely held s) :
    (memberRow roomId p next).Sound rely held s := fun _ ht _ => (h _).later ht

theorem sound_withinSize {limit : Option ℕ} {next : Call} (h : next.Sound rely held s) :
    (withinSize roomId limit next).Sound rely held s := by
  cases limit with
  | none => exact h
  | some limit => exact fun _ ht _ => .require fun _ => h.later ht

theorem roomOf_eq_some (h : s.roomOf k roomId = some room) :
    s.rooms roomId = some room ∧ room.spaceId = some k := by
  obtain ⟨hroom, hspace⟩ := Option.filter_eq_some_iff.mp h
  exact ⟨hroom, of_decide_eq_true hspace⟩

variable {next : Room → Call}

theorem sound_spaceRoom
    (h : ∀ t room, rely.Later held s t → t.rooms roomId = some room → room.spaceId = some k →
      (next room).Sound rely held t) : (spaceRoom k roomId next).Sound rely held s := by
  refine .select fun t ht _ => ?_
  cases hroom : t.roomOf k roomId with
  | none => trivial
  | some room => exact h t room ht (roomOf_eq_some hroom).1 (roomOf_eq_some hroom).2

theorem sound_lockedSpaceRoom
    (h : ∀ t room, rely.Later held s t → t.rooms roomId = some room → room.spaceId = some k →
      (next room).Sound rely held t) : (lockedSpaceRoom k roomId next).Sound rely held s := by
  refine .lock (fun t _ _ hnone => ?_) fun t r ht _ hsome => ?_
  · rw [Option.map_eq_none_iff] at hnone
    simp only [hnone, Program.Sound]
  · obtain ⟨room, hroom, -⟩ := Option.map_eq_some_iff.mp hsome
    simp only [hroom]
    exact (h t room ht (roomOf_eq_some hroom).1 (roomOf_eq_some hroom).2).mono fun _ hx => .inl hx

theorem sound_loadRoom
    (h : ∀ t room, rely.Later held s t → t.rooms roomId = some room → (next room).Sound rely held t) :
    (loadRoom roomId next).Sound rely held s := by
  refine .select fun t ht _ => ?_
  cases hroom : t.rooms roomId with
  | none => trivial
  | some room => exact h t room ht hroom

theorem sound_lockedRoom
    (h : ∀ t room, rely.Later held s t → t.rooms roomId = some room → (next room).Sound rely held t) :
    (lockedRoom roomId next).Sound rely held s := by
  refine .lock (fun t _ _ hnone => ?_) fun t r ht _ hsome => ?_
  · rw [Option.map_eq_none_iff] at hnone
    simp only [hnone, Program.Sound]
  · obtain ⟨room, hroom, -⟩ := Option.map_eq_some_iff.mp hsome
    simp only [hroom]
    exact (h t room ht hroom).mono fun _ hx => .inl hx

theorem activeMembership_eq_some {row : UserId × Membership} (h : s.activeMembership k userId = some row) :
    row.1 = userId ∧ s.memberships k row.1 = some row.2 ∧ row.2.status = .active := by
  obtain ⟨-, h⟩ := Option.ite_none_right_eq_some.mp h
  obtain ⟨m, hm, rfl⟩ := Option.map_eq_some_iff.mp h
  obtain ⟨hm, hactive⟩ := Option.filter_eq_some_iff.mp hm
  exact ⟨rfl, hm, of_decide_eq_true hactive⟩

theorem sound_activeMemberUsers {memberIds : List UserId} {next : List (UserId × Membership) → Call}
    (h : ∀ t rows, rely.Later held s t → (∀ row ∈ rows, t.memberships k row.1 = some row.2 ∧ row.2.status = .active) →
      (∀ userId ∈ memberIds, t.Active k (.human userId)) → (next rows).Sound rely held t) :
    (activeMemberUsers k memberIds next).Sound rely held s := by
  intro t ht _
  refine .require fun hall => h t _ ht (fun row hrow => ?_) fun userId hmem => ?_
  · obtain ⟨asked, -, hasked⟩ := List.mem_filterMap.mp hrow
    exact (activeMembership_eq_some hasked).2
  · have hsome := List.filterMap_length_eq_length.mp hall userId (List.mem_dedup.mpr hmem)
    obtain ⟨row, hrow⟩ := Option.isSome_iff_exists.mp hsome
    obtain ⟨rfl, hm, hactive⟩ := activeMembership_eq_some hrow
    exact ⟨row.2, hm, hactive⟩

theorem sound_requireSponsored {next : Call} (h : next.Sound rely held s) :
    (requireSponsored k agentId m next).Sound rely held s :=
  sound_membershipOf fun _ ht => .require fun _ => sound_requireMembership fun _ hu _ _ _ _ hv _ =>
    .require fun _ => h.later (ht.trans (hu.trans hv))

theorem sound_requireAgentMembership {next : AgentMembership → Call}
    (h : ∀ t m, rely.Later held s t → t.agentMembership k agentId = some m → m.status = .active →
      (next m).Sound rely held t) : (requireAgentMembership k agentId next).Sound rely held s := by
  refine .select fun t ht _ => ?_
  cases hm : t.agentMembership k agentId with
  | none => trivial
  | some m => exact .require fun hactive => sound_requireSponsored (h t m ht hm hactive)

theorem sound_checkAgentAddable {actorId : UserId} {next : AgentMembership → Call}
    (h : ∀ t m, rely.Later held s t → t.agentMembership k agentId = some m → m.status = .active →
      (next m).Sound rely held t) : (checkAgentAddable k actorId agentId next).Sound rely held s := by
  refine sound_requireAgentMembership fun t m ht hm hactive => ?_
  split
  · exact h t m ht hm hactive
  · exact sound_requireManager (h t m ht hm hactive)

/-- Where the space is held, agents found active one after the other are active together. -/
theorem sound_checkAgentsAddable (hheld : held (.space k)) {actorId : UserId} {agentIds : List AgentId} {next : Call}
    (h : ∀ t, rely.Later held s t → (∀ agentId ∈ agentIds, t.Active k (.agent agentId)) → next.Sound rely held t) :
    (checkAgentsAddable k actorId agentIds next).Sound rely held s := by
  induction agentIds generalizing s with
  | nil => exact h s .refl fun agentId hmem => by cases hmem
  | cons agentId rest ih =>
    refine sound_checkAgentAddable fun t m ht hm hactive => ih fun u hu hrest => h u (ht.trans hu) fun other hother => ?_
    have hfirst : t.Active k (.agent agentId) := ⟨m, hm, hactive⟩
    cases List.mem_cons.mp hother with
    | inl heq => exact heq ▸ Later.active hu hheld hfirst
    | inr hmem => exact hrest other hmem

theorem sound_seatInGenericRoom (hroom : (s.rooms roomId).isSome) :
    (seatInGenericRoom roomId p).Sound rely held s := by
  obtain ⟨room, hroom⟩ := Option.isSome_iff_exists.mp hroom
  intro t ht _
  refine .require fun hgeneric => sound_write fun u hu hinv v hv => commits_addMember hinv hv fun found hfound k hk => ?_
  have ht : t.rooms roomId = some room := ht.since roomId room hroom
  have hu : u.rooms roomId = some room := hu.since roomId room ht
  rw [hu] at hfound
  cases hfound
  simp only [ht, Option.bind_some] at hgeneric
  exact absurd (hgeneric.symm.trans hk) (by simp)

end BotCord.Rooms
