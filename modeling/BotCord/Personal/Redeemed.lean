import BotCord.Personal.Tables

/-!
# What a redeemed invite has done

A redeeming call reads the uses of its invite and later writes the next number, and what it inserts goes with its redemption: a duplicate of either fails the call. So whoever is answered that an invite is redeemed is connected, and the uses are counted where no other redemption of the code commits in between.
-/

namespace BotCord.Personal

open Rooms (Participant RoomRole)
open Spaces (UserId AgentId Instant)
open Contacts (Contact participantTypeFor)

namespace Store

variable (s : Store)

/-- How many agents have redeemed a code. -/
def uses (code : String) : ℕ := s.redemptions.rows.countP (·.code = code)

def Connected (kind : InviteKind) (creator : Participant) (agentId : AgentId) : Prop :=
  match kind with
  | .friend => s.contacts (.agent agentId) creator ≠ none ∧ s.contacts creator (.agent agentId) ≠ none
  | .room roomId => s.seat roomId (.agent agentId) ≠ none

def Insertable (code : String) (kind : InviteKind) (creator : Participant) (agentId : AgentId) : Prop :=
  s.redemptions.get? { code, redeemerAgentId := agentId } = none ∧
  match kind with
  | .friend => s.contacts (.agent agentId) creator = none ∧ s.contacts creator (.agent agentId) = none
  | .room roomId => s.seat roomId (.agent agentId) = none ∧ s.rooms roomId ≠ none

instance (code : String) (kind : InviteKind) (creator : Participant) (agentId : AgentId) :
    Decidable (s.Insertable code kind creator agentId) := by
  unfold Insertable
  cases kind <;> exact inferInstance

end Store

/-- A call that can insert what it has to finds the uses of its invite as it has read them. -/
def Counted (code : String) (agentId : AgentId) (read : Read) (s : Store) : Prop :=
  s.Insertable code read.invite.kind read.invite.creatorAgentId agentId →
    (s.invites code).map (·.useCount) = some read.invite.useCount
deriving Decidable

inductive InviteRequest
  | redeem (code : String) (agentId : AgentId)
  | revoke (code : String) (agentId : AgentId)
  | removeContact (agentId : AgentId) (peer : Participant)
  | leaveRoom (roomId : RoomId) (agentId : AgentId)

def InviteRequest.program : InviteRequest → Store → Call
  | .redeem code agentId, _ => redeemInviteForAgent (fun code agentId read s => decide (Counted code agentId read s)) code agentId
  | .revoke code agentId, _ => revokeInvite code agentId
  | .removeContact agentId peer, _ => Personal.removeContact agentId peer
  | .leaveRoom roomId agentId, _ => Personal.leaveRoom (fun _ _ => true) roomId agentId

/-- Time passes, invites are made, and other calls change contacts, members, rooms and subscriptions. -/
inductive InviteEvent
  | tick (microseconds : ℕ)
  | invite (code : String) (kind : InviteKind) (creator : Participant) (expiresAt : Option Instant) (maxUses : ℕ)
  | contact (owner peer : Participant) (row : Option Contact)
  | enter (member : RoomMember)
  | expel (roomId : RoomId) (participant : Participant)
  | room (roomId : RoomId) (row : Option Room)
  | subscriptions (rows : List AgentSubscription)

def InviteEvent.apply : InviteEvent → Store → Store
  | .tick microseconds, s => { s with now := s.now + microseconds }
  | .invite code kind creatorAgentId expiresAt maxUses, s =>
    if s.invites code = none then
      { s with invites := Function.update s.invites code (some { kind, creatorAgentId, expiresAt, maxUses }) }
    else s
  | .contact owner peer row, s => s.setContact owner peer row
  | .enter member, s => (s.insertMember member).getD s
  | .expel roomId participant, s => { s with members := s.members.remove (·.key = (roomId, participant)) }
  | .room roomId row, s => { s with rooms := Function.update s.rooms roomId row }
  | .subscriptions rows, s => { s with subscriptions := rows }

def inviteLinks : System (Calls Store RoomId) (CallAction InviteRequest InviteEvent) :=
  calls InviteRequest.program InviteEvent.apply

structure Inv (s : Store) : Prop where
  counted : ∀ code invite, s.invites code = some invite → invite.useCount = s.uses code ∧ invite.useCount ≤ invite.maxUses
  known : ∀ r ∈ s.redemptions, s.invites r.code ≠ none

def Since (s t : Store) : Prop :=
  ∀ code invite, s.invites code = some invite →
    ∃ later, t.invites code = some later ∧ later.kind = invite.kind ∧ later.creatorAgentId = invite.creatorAgentId ∧
      later.maxUses = invite.maxUses

def Answers (s t : Store) : Prop :=
  ∃ answers, t.answered = s.answered ++ answers ∧ ∀ a ∈ answers,
    ∃ invite, t.invites a.code = some invite ∧ t.Connected invite.kind invite.creatorAgentId a.redeemerAgentId

theorem Since.refl (s : Store) : Since s s := fun _ invite h => ⟨invite, h, rfl, rfl, rfl⟩

theorem Since.of_eq {s t : Store} (h : t.invites = s.invites) : Since s t := fun _ invite hinvite =>
  ⟨invite, h ▸ hinvite, rfl, rfl, rfl⟩

theorem Answers.of_eq {s t : Store} (h : t.answered = s.answered) : Answers s t :=
  ⟨[], by rw [h, List.append_nil], fun _ ha => nomatch ha⟩

def inviteRely : Rely Store RoomId where
  β _ := Unit
  row _ _ := ()
  inv := Inv
  since := Since
  commits := Answers
  trusted := True
  refl := Since.refl
  trans s t u hst htu code invite h := by
    obtain ⟨later, hlater, hkind, hcreator, hmax⟩ := hst code invite h
    obtain ⟨latest, hlatest, hkind', hcreator', hmax'⟩ := htu code later hlater
    exact ⟨latest, hlatest, hkind'.trans hkind, hcreator'.trans hcreator, hmax'.trans hmax⟩

section Commits

variable {s t u : Store} {held : RoomId → Prop} {code : String} {agentId : AgentId}

theorem inv_of_eq (h : Inv s) (hinvites : t.invites = s.invites) (hredemptions : t.redemptions = s.redemptions) : Inv t := by
  refine ⟨fun code invite hinvite => ?_, fun r hr => ?_⟩
  · rw [hinvites] at hinvite
    unfold Store.uses
    rw [hredemptions]
    exact h.counted code invite hinvite
  · rw [hredemptions] at hr
    rw [hinvites]
    exact h.known r hr

theorem commits_of_eq (h : Inv s) (hinvites : t.invites = s.invites) (hredemptions : t.redemptions = s.redemptions)
    (hanswered : t.answered = s.answered) : inviteRely.Commits held s t :=
  ⟨inv_of_eq h hinvites hredemptions, .of_eq hinvites, fun _ _ => rfl, .of_eq hanswered⟩

theorem invites_putInvite {f : Invite → Invite} {k : String} :
    (s.putInvite code f).invites k = if k = code then (s.invites k).map f else s.invites k := by
  simp only [Store.putInvite, Function.update_apply]
  by_cases hk : k = code
  · subst hk
    simp only [if_true]
  · simp only [hk, if_false]

theorem since_putInvite {f : Invite → Invite}
    (hf : ∀ row, (f row).kind = row.kind ∧ (f row).creatorAgentId = row.creatorAgentId ∧ (f row).maxUses = row.maxUses) :
    Since s (s.putInvite code f) := by
  intro k invite hinvite
  rw [invites_putInvite, hinvite]
  by_cases hk : k = code
  · rw [if_pos hk]
    exact ⟨f invite, rfl, hf invite⟩
  · rw [if_neg hk]
    exact ⟨invite, rfl, rfl, rfl, rfl⟩

theorem commits_revoke (h : Inv s) {now : Instant} :
    inviteRely.Commits held s (s.putInvite code fun row => { row with revokedAt := some now }) := by
  refine ⟨⟨fun k invite hinvite => ?_, fun r hr => ?_⟩, since_putInvite fun _ => ⟨rfl, rfl, rfl⟩, fun _ _ => rfl, .of_eq rfl⟩
  · rw [invites_putInvite] at hinvite
    split at hinvite
    · obtain ⟨row, hrow, rfl⟩ := Option.map_eq_some_iff.mp hinvite
      exact h.counted k row hrow
    · exact h.counted k invite hinvite
  · rw [invites_putInvite]
    split
    · rw [Ne, Option.map_eq_none_iff]
      exact h.known r hr
    · exact h.known r hr

/-- What an insertion of an invite does: everything it inserts was new, and its agent is connected. -/
structure Connects (code : String) (kind : InviteKind) (creator : Participant) (agentId : AgentId) (s t : Store) : Prop where
  insertable : s.redemptions.get? { code, redeemerAgentId := agentId } = none → s.Insertable code kind creator agentId
  connected : t.Connected kind creator agentId
  invites : t.invites = s.invites
  redemptions : t.redemptions = s.redemptions
  answered : t.answered = s.answered

theorem setContact_ne {a b x y : Participant} {row : Contact} (h : s.contacts x y ≠ none) :
    (s.setContact a b (some row)).contacts x y ≠ none := by
  simp only [Store.setContact, Function.update_apply]
  split
  · subst_vars
    rw [Function.update_apply]
    split
    · exact Option.some_ne_none row
    · exact h
  · exact h

theorem contacts_setContact_self {a b : Participant} {row : Option Contact} : (s.setContact a b row).contacts a b = row := by
  simp only [Store.setContact, Function.update_self]

theorem connectFriend_eq_some {creator : Participant} (h : connectFriend creator agentId s = some t) :
    Connects code .friend creator agentId s t := by
  unfold connectFriend at h
  dsimp only at h
  obtain ⟨u, hu, ht⟩ := Option.bind_eq_some_iff.mp h
  obtain ⟨hforth, hu⟩ := Option.ite_none_right_eq_some.mp hu
  obtain ⟨hback, ht⟩ := Option.ite_none_right_eq_some.mp ht
  cases hu
  cases ht
  have hfree : s.contacts creator (.agent agentId) = none := by
    by_contra hne
    exact setContact_ne hne hback
  refine ⟨fun hnew => ⟨hnew, hforth, hfree⟩, ⟨setContact_ne ?_, ?_⟩, rfl, rfl, rfl⟩
  · rw [contacts_setContact_self]
    exact Option.some_ne_none _
  · rw [contacts_setContact_self]
    exact Option.some_ne_none _

theorem connectRoom_eq_some {roomId : RoomId} {creator : Participant} (h : connectRoom roomId agentId s = some t) :
    Connects code (.room roomId) creator agentId s t := by
  obtain ⟨members, hroom, hadds, rfl⟩ := insertMember_eq_some h
  refine ⟨fun hnew => ⟨hnew, ?_, hroom⟩, ?_, rfl, rfl, rfl⟩
  · exact Keyed.get?_eq_none_iff.mpr hadds.new
  · show members.get? _ ≠ none
    simp [hadds.get?, RoomMember.key]

/-- A call that redeems keeps the count and answers the truth, where it finds the tables as `Counted` says. -/
theorem commits_recordRedemption {invite : Invite} {connect : Store → Option Store} (h : Inv s) {row : Invite}
    (hrow : s.invites code = some row) (hkind : row.kind = invite.kind) (hcreator : row.creatorAgentId = invite.creatorAgentId)
    (hmax : row.maxUses = invite.maxUses) (hactive : invite.useCount < invite.maxUses)
    (hconnect : ∀ t, connect s = some t → Connects code invite.kind invite.creatorAgentId agentId s t)
    (hread : Counted code agentId { invite } s) (hu : recordRedemption code agentId invite connect s = some u) :
    inviteRely.Commits held s u := by
  obtain ⟨t, redemptions, ht, hadds, hu⟩ := recordRedemption_eq_some hu
  obtain ⟨hinsertable, hconnected, hinvites, hkept, hanswered⟩ := hconnect t ht
  rw [hkept] at hadds
  have huses : row.useCount = invite.useCount := by
    have hfound := hread (hinsertable (Keyed.get?_eq_none_iff.mpr hadds.new))
    rw [hrow] at hfound
    exact Option.some.inj hfound
  have hrows : ∀ k, u.invites k =
      if k = code then (s.invites k).map fun row => { row with useCount := invite.useCount + 1 } else s.invites k := by
    intro k
    rw [hu]
    simp only [Store.answer, invites_putInvite, hinvites]
  have hcount : ∀ k, u.uses k = s.uses k + if k = code then 1 else 0 := by
    intro k
    rw [hu]
    show redemptions.rows.countP _ = _
    rw [hadds.rows, List.countP_append]
    by_cases hk : k = code
    · simp [Store.uses, hk]
    · simp [Store.uses, hk, Ne.symm hk]
  refine ⟨⟨fun k found hfound => ?_, fun r hr => ?_⟩, fun k found hfound => ?_, fun _ _ => rfl, ?_⟩
  · rw [hrows] at hfound
    rw [hcount]
    by_cases hk : k = code
    · subst hk
      rw [if_pos rfl, hrow] at hfound
      cases hfound
      have hold := (h.counted k row hrow).1
      rw [if_pos rfl, ← huses, hold]
      refine ⟨rfl, ?_⟩
      rw [← hold, huses, hmax]
      exact hactive
    · rw [if_neg hk] at hfound
      rw [if_neg hk]
      exact h.counted k found hfound
  · rw [hu] at hr
    rw [hrows]
    rcases hadds.mem_iff.mp hr with hold | rfl
    · split
      · rw [Ne, Option.map_eq_none_iff]
        exact h.known r hold
      · exact h.known r hold
    · rw [if_pos rfl, hrow]
      exact Option.some_ne_none _
  · rw [hrows, hfound]
    split
    · exact ⟨_, rfl, rfl, rfl, rfl⟩
    · exact ⟨_, rfl, rfl, rfl, rfl⟩
  · refine ⟨[{ code, redeemerAgentId := agentId }], ?_, fun a ha => ?_⟩
    · rw [hu, ← hanswered]
      rfl
    · cases List.mem_singleton.mp ha
      refine ⟨{ row with useCount := invite.useCount + 1 }, ?_, ?_⟩
      · rw [hrows, if_pos rfl, hrow]
        rfl
      · rw [hu]
        show Store.Connected _ row.kind row.creatorAgentId agentId
        rw [hkind, hcreator]
        exact hconnected

end Commits

section Outlines

variable {held : RoomId → Prop} (s : Store)

theorem sound_redeem (code : String) (agentId : AgentId) :
    (redeemInviteForAgent (fun code agentId read s => decide (Counted code agentId read s)) code agentId).Sound inviteRely held s := by
  refine sound_redeemInviteForAgent (fun t hinv => commits_of_eq hinv rfl rfl rfl) ?_ ?_
  · intro s₀ t u invite hinvite hkind hlater hinv hactive hread hu
    obtain ⟨row, hrow, hk, hcreator, hmax⟩ := hlater.since code invite hinvite
    refine commits_recordRedemption hinv hrow hk hcreator hmax hactive (fun v hv => ?_) (of_decide_eq_true (hread trivial)) hu
    rw [hkind]
    exact connectFriend_eq_some hv
  · intro held' s₀ w t u invite roomId room seats hinvite hkind hlater _ hlater' hinv hactive _ hread hu
    obtain ⟨row, hrow, hk, hcreator, hmax⟩ := inviteRely.trans _ _ _ hlater.since hlater'.since code invite hinvite
    refine commits_recordRedemption hinv hrow hk hcreator hmax hactive (fun v hv => ?_) (of_decide_eq_true (hread trivial)) hu
    rw [hkind]
    exact connectRoom_eq_some hv

theorem sound_revoke (code : String) (agentId : AgentId) : (revokeInvite code agentId).Sound inviteRely held s := by
  intro t _ _
  dsimp only
  split
  · trivial
  · refine .require fun _ => sound_clock fun u _ _ => .require fun _ => .commit fun v _ hinv _ w hw => ?_
    cases hw
    exact commits_revoke hinv

theorem sound_removeContact (agentId : AgentId) (peer : Participant) :
    (Personal.removeContact agentId peer).Sound inviteRely held s := by
  refine .select fun t _ _ => .require fun _ => .select fun u _ _ => .commit fun v _ hinv _ w hw => ?_
  cases hw
  split
  · exact commits_of_eq hinv rfl rfl rfl
  · exact commits_of_eq hinv rfl rfl rfl

theorem sound_leaveRoom (roomId : RoomId) (agentId : AgentId) :
    (Personal.leaveRoom (fun _ _ => true) roomId agentId).Sound inviteRely held s := by
  refine sound_loadRoomWithMembers fun t u room _ _ _ _ _ => sound_requireMembership fun member _ _ _ => .require fun _ => ?_
  refine .commit fun v _ hinv _ w hw => ?_
  cases hw
  exact commits_of_eq hinv rfl rfl rfl

theorem sound_inviteProgram (request : InviteRequest) : (request.program s).Sound inviteRely (fun _ => False) s := by
  cases request with
  | redeem code agentId => exact sound_redeem s code agentId
  | revoke code agentId => exact sound_revoke s code agentId
  | removeContact agentId peer => exact sound_removeContact s agentId peer
  | leaveRoom roomId agentId => exact sound_leaveRoom s roomId agentId

variable {s}

theorem inviteEvent_kept (event : InviteEvent) (h : Inv s) :
    Inv (event.apply s) ∧ Answers s (event.apply s) ∧ Since s (event.apply s) := by
  cases event with
  | tick microseconds => exact ⟨inv_of_eq h rfl rfl, .of_eq rfl, .of_eq rfl⟩
  | contact owner peer row => exact ⟨inv_of_eq h rfl rfl, .of_eq rfl, .of_eq rfl⟩
  | expel roomId participant => exact ⟨inv_of_eq h rfl rfl, .of_eq rfl, .of_eq rfl⟩
  | room roomId row => exact ⟨inv_of_eq h rfl rfl, .of_eq rfl, .of_eq rfl⟩
  | subscriptions rows => exact ⟨inv_of_eq h rfl rfl, .of_eq rfl, .of_eq rfl⟩
  | enter member =>
    simp only [InviteEvent.apply]
    cases ht : s.insertMember member with
    | none => exact ⟨h, .of_eq rfl, .of_eq rfl⟩
    | some t =>
      obtain ⟨members, -, -, rfl⟩ := insertMember_eq_some ht
      exact ⟨inv_of_eq h rfl rfl, .of_eq rfl, .of_eq rfl⟩
  | invite code kind creator expiresAt maxUses =>
    simp only [InviteEvent.apply]
    split
    · rename_i hnew
      refine ⟨⟨fun k invite hinvite => ?_, fun r hr => ?_⟩, .of_eq rfl, fun k invite hinvite => ⟨invite, ?_, rfl, rfl, rfl⟩⟩
      · by_cases hk : k = code
        · subst hk
          cases (Function.update_self ..).symm.trans hinvite
          refine ⟨(List.countP_eq_zero.mpr fun r hr hcode => ?_).symm, Nat.zero_le maxUses⟩
          have hcode := of_decide_eq_true hcode
          subst hcode
          exact h.known r hr hnew
        · exact h.counted k invite ((Function.update_of_ne hk ..).symm.trans hinvite)
      · by_cases hk : r.code = code
        · exact absurd (hk ▸ hnew) (h.known r hr)
        · exact (Function.update_of_ne hk ..).trans_ne (h.known r hr)
      · have hk : k ≠ code := by
          rintro rfl
          exact nomatch hnew.symm.trans hinvite
        exact (Function.update_of_ne hk ..).trans hinvite
    · exact ⟨h, .of_eq rfl, .of_eq rfl⟩

end Outlines

section Runs

variable {start : Store} {d d' : Calls Store RoomId}

theorem kept_inviteStep {a : CallAction InviteRequest InviteEvent} (h : Calls.Kept inviteRely d) (hread : d.AsRead a)
    (hstep : inviteLinks.step d a = some d') : Calls.Kept inviteRely d' ∧ Answers d.committed d'.committed := by
  obtain ⟨hkept, hmoved⟩ := Calls.Kept.step (fun request s _ => sound_inviteProgram s request)
    (fun event s hinv => ⟨(inviteEvent_kept event hinv).1, fun _ => ⟨fun _ _ => rfl, (inviteEvent_kept event hinv).2.2⟩⟩) h
    (fun _ => hread) hstep
  refine ⟨hkept, ?_⟩
  generalize d'.committed = t at hmoved
  cases hmoved with
  | same => exact .of_eq rfl
  | commits hanswers => exact hanswers
  | outside event => exact (inviteEvent_kept event h.inv).2.1

/-- In every run from tables without redemptions in which a call that redeems a code, and can insert what it has to, finds that no other redemption of the code has come since it read the invite: whoever is answered that an invite is redeemed is connected when the call commits, and the uses of every invite are the agents that have redeemed it and no more than they may be. -/
theorem redeemed_and_counted (hinvites : ∀ code invite, start.invites code = some invite → invite.useCount = 0)
    (hredemptions : ∀ r, r ∉ start.redemptions) {actions : List (CallAction InviteRequest InviteEvent)}
    (hmeets : inviteLinks.Meets Calls.AsRead { committed := start } actions)
    (hrun : inviteLinks.run { committed := start } actions = some d) :
    (∀ code invite, d.committed.invites code = some invite →
      invite.useCount = d.committed.uses code ∧ invite.useCount ≤ invite.maxUses) ∧
    ∀ a d', d.AsRead a → inviteLinks.step d a = some d' → ∃ answers, d'.committed.answered = d.committed.answered ++ answers ∧
      ∀ answer ∈ answers, ∃ invite, d'.committed.invites answer.code = some invite ∧
        d'.committed.Connected invite.kind invite.creatorAgentId answer.redeemerAgentId := by
  have hstart : Inv start := by
    refine ⟨fun code invite hinvite => ?_, fun r hr => absurd hr (hredemptions r)⟩
    have hnone : start.uses code = 0 := List.countP_eq_zero.mpr fun r hr => absurd hr (hredemptions r)
    rw [hnone, hinvites code invite hinvite]
    exact ⟨rfl, Nat.zero_le _⟩
  have hkept : Calls.Kept inviteRely d := inviteLinks.run_invariant_of_meets
    (fun _ _ _ hkept hread hstep => (kept_inviteStep hkept hread hstep).1) (.start hstart) hmeets hrun
  exact ⟨hkept.inv.counted, fun a d' hread hstep => (kept_inviteStep hkept hread hstep).2⟩

/-- A friend invite of agent 0 for one agent; agents 1 and 2 read it before either commits. -/
def redeemedAtOnce : List (CallAction InviteRequest InviteEvent) :=
  [.outside (.invite "iv_a" .friend (.agent "ag_0") none 1), .call 1 (.redeem "iv_a" "ag_1"), .call 2 (.redeem "iv_a" "ag_2"),
    .next 1, .next 2, .next 1, .next 2, .next 1, .next 2, .next 1, .next 2]

theorem used_more_than_once : ∃ d invite, inviteLinks.run { committed := {} } redeemedAtOnce = some d ∧
    d.committed.invites "iv_a" = some invite ∧ invite.maxUses = 1 ∧ invite.useCount = 1 ∧ d.committed.uses "iv_a" = 2 := by
  have hrun : (inviteLinks.run { committed := {} } redeemedAtOnce).any (fun d =>
      (d.committed.invites "iv_a").any (fun invite => invite.maxUses = 1 ∧ invite.useCount = 1) = true ∧
        d.committed.uses "iv_a" = 2) = true := by decide +kernel
  obtain ⟨d, hrun, hd⟩ := Option.any_eq_true _ _ |>.mp hrun
  obtain ⟨hinvite, huses⟩ := of_decide_eq_true hd
  obtain ⟨invite, hinvite, hcounts⟩ := Option.any_eq_true _ _ |>.mp hinvite
  obtain ⟨hmax, hcount⟩ := of_decide_eq_true hcounts
  exact ⟨d, invite, hrun, hinvite, hmax, hcount, huses⟩

def redeemedInTurn : List (CallAction InviteRequest InviteEvent) :=
  [.outside (.invite "iv_a" .friend (.agent "ag_0") none 2), .call 1 (.redeem "iv_a" "ag_1"), .next 1, .next 1, .next 1, .next 1,
    .call 2 (.redeem "iv_a" "ag_2"), .next 2, .next 2, .next 2, .next 2]

theorem redeemed_and_counted_in_turn : ∃ d invite, inviteLinks.run { committed := {} } redeemedInTurn = some d ∧
    d.committed.invites "iv_a" = some invite ∧ invite.useCount = 2 ∧ d.committed.uses "iv_a" = 2 := by
  have hrun : (inviteLinks.run { committed := {} } redeemedInTurn).any (fun d =>
      (d.committed.invites "iv_a").any (·.useCount = 2) = true) = true := by decide +kernel
  obtain ⟨d, hrun, hd⟩ := Option.any_eq_true _ _ |>.mp hrun
  obtain ⟨invite, hinvite, hcount⟩ := Option.any_eq_true _ _ |>.mp (of_decide_eq_true hd)
  have hcount : invite.useCount = 2 := of_decide_eq_true hcount
  obtain ⟨hcounted, -⟩ := redeemed_and_counted (fun _ _ h => by cases h) (fun _ => Keyed.not_mem_empty) (by decide +kernel) hrun
  exact ⟨d, invite, hrun, hinvite, hcount, (hcounted _ invite hinvite).1.symm.trans hcount⟩

end Runs

end BotCord.Personal
