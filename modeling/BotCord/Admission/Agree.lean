import BotCord.Admission.Edges

/-!
# The graph and the policies

The shadow comparison of `hub/services/access_decide.py`: what a check of `hub/policy.py` lets pass beside what the graph decides after a full synchronization. They agree exactly if the graph's relations say what the policy asks for.
-/

namespace BotCord.Admission

open Access (Instant PrincipalId Decision)
open Spaces (AgentId Projection)

inductive Mismatch
  | expectedRoomBypass | expectedSameOwnerInvite | unexpected
deriving DecidableEq

/-- `_classify` -/
def classify (legacy : Verdict) (decision : Decision) : Mismatch :=
  match legacy with
  | .ok .sameRoom => if decision.reason = .roomOnly then .expectedRoomBypass else .unexpected
  | _ => .unexpected

/-- What `shadow_direct` logs. -/
def shadowDirect (legacy : Verdict) (decision : Decision) : Option Mismatch :=
  if decision.allowed ≠ legacy.isOk then some (classify legacy decision) else none

/-- What `shadow_room_invite` logs. -/
def shadowRoomInvite (legacy : Verdict) (decision : Decision) : Option Mismatch :=
  if decision.allowed ≠ legacy.isOk then
    some (if ¬ legacy.isOk ∧ decision.reason = .ownership then .expectedSameOwnerInvite else .unexpected)
  else none

section

variable {decision : Decision}

@[simp] theorem shadowDirect_error {denial : LegacyDenial} :
    shadowDirect (.error denial) decision ≠ some .unexpected ↔ decision.allowed = false := by
  cases hallowed : decision.allowed <;> simp [shadowDirect, classify, Except.isOk, Except.toBool, hallowed]

theorem shadowDirect_ok {reason : LegacyReason} (hreason : reason ≠ .sameRoom) :
    shadowDirect (.ok reason) decision ≠ some .unexpected ↔ decision.allowed = true := by
  cases hallowed : decision.allowed <;>
    simp [shadowDirect, classify, Except.isOk, Except.toBool, hallowed, hreason]

@[simp] theorem shadowDirect_sameRoom :
    shadowDirect (.ok .sameRoom) decision ≠ some .unexpected ↔ decision.allowed = true ∨ decision.reason = .roomOnly := by
  cases hallowed : decision.allowed <;> simp [shadowDirect, classify, Except.isOk, Except.toBool, hallowed]

@[simp] theorem shadowRoomInvite_error {denial : LegacyDenial} :
    shadowRoomInvite (.error denial) decision ≠ some .unexpected ↔
      (decision.allowed = true → decision.reason = .ownership) := by
  cases hallowed : decision.allowed <;> simp [shadowRoomInvite, Except.isOk, Except.toBool, hallowed]

@[simp] theorem shadowRoomInvite_ok {reason : LegacyReason} :
    shadowRoomInvite (.ok reason) decision ≠ some .unexpected ↔ decision.allowed = true := by
  cases hallowed : decision.allowed <;> simp [shadowRoomInvite, Except.isOk, Except.toBool, hallowed]

end

namespace Tables

variable (t : Tables) (sender : Principal) (receiver : Spaces.Agent)

/-- The attributes of an agent that a decision reads beside the graph. -/
def node : Access.Agent where
  agentId := receiver.agentId
  allowAgentSender := (t.policies receiver.agentId).allowAgentSender
  allowHumanSender := (t.policies receiver.agentId).allowHumanSender

def Related : Prop := t.isContact receiver.agentId sender ∨ t.sameOwner receiver sender
deriving Decidable

def Reaches : Prop := t.lists receiver.agentId sender.id ∨ t.ownedAlike receiver.agentId sender
deriving Decidable

/-- A sender passes or is refused before the policy is asked, or the policy and the graph say the same of it. -/
def DirectMatches (contactRequest allowSameRoomBypass : Bool) : Prop :=
  t.isBlocked receiver.agentId sender ∨ contactRequest = true ∨
    senderClassDenied (t.policies receiver.agentId) sender ≠ none ∨
    match effectiveContactPolicy (t.policies receiver.agentId) with
    | .open_ => receiver.status = .active ∨ t.lists receiver.agentId sender.id
    | .contactsOnly =>
      (t.Related sender receiver ↔ t.Reaches sender receiver) ∨
        allowSameRoomBypass = true ∧ t.sharesRoom receiver.agentId sender ∧ t.Reaches sender receiver
    | .whitelist => t.Related sender receiver ↔ t.Reaches sender receiver
    | .closed => ¬ t.Reaches sender receiver

/-- The same of an inviter, whom ownership lets pass in any case. -/
def InviteMatches : Prop :=
  t.isBlocked receiver.agentId sender ∨ senderClassDenied (t.policies receiver.agentId) sender ≠ none ∨
    t.ownedAlike receiver.agentId sender ∨
    match effectiveRoomInvitePolicy (t.policies receiver.agentId) with
    | .open_ => receiver.status = .active ∨ t.lists receiver.agentId sender.id
    | .contactsOnly => t.lists receiver.agentId sender.id → t.isContact receiver.agentId sender
    | .closed => ¬ t.lists receiver.agentId sender.id

instance (contactRequest allowSameRoomBypass : Bool) :
    Decidable (t.DirectMatches sender receiver contactRequest allowSameRoomBypass) := by
  unfold DirectMatches
  cases effectiveContactPolicy (t.policies receiver.agentId) <;> infer_instance

instance : Decidable (t.InviteMatches sender receiver) := by
  unfold InviteMatches
  cases effectiveRoomInvitePolicy (t.policies receiver.agentId) <;> infer_instance

end Tables

section

variable {t : Tables} {p : Projection} {now : Instant} {sender : Principal} {receiver : Spaces.Agent}
  (db : Access.Session (syncAccessGraph p t now).graph) (later : Instant) (hsender : t.Knows sender)
  (hreceiver : receiver ∈ t.spaces.agents)

include hsender in
theorem senderClassAllowed_eq_none_iff :
    Access.senderClassAllowed (t.node receiver) sender.id = none ↔
      Tables.senderClassDenied (t.policies receiver.agentId) sender = none := by
  have hagent : sender.id.startsWith "ag_" = true ↔ sender.type = .agent := hsender.startsWith_iff .agent
  have hhuman : sender.id.startsWith "hu_" = true ↔ sender.type = .human := hsender.startsWith_iff .human
  unfold Access.senderClassAllowed Tables.senderClassDenied Tables.node
  cases htype : sender.type <;> simp [htype, hagent, hhuman]

include hsender hreceiver in
theorem blocked_iff :
    (Access.blocked db receiver.agentId sender.id later).isSome ↔ t.isBlocked receiver.agentId sender := by
  rw [isBlocked_iff hsender, blocked_isSome_iff db later (knows_agent hreceiver) (knows_sender hsender)]

include hsender hreceiver in
theorem blocked_eq_none (hblocked : ¬ t.isBlocked receiver.agentId sender) :
    Access.blocked db (t.node receiver).agentId sender.id later = none := by
  rw [← Option.not_isSome_iff_eq_none]
  exact fun hsome => hblocked ((blocked_iff db later hsender hreceiver).mp hsome)

theorem active_of_ownedAlike (hreceiver : receiver ∈ t.spaces.agents) (h : t.ownedAlike receiver.agentId sender) :
    receiver.status = .active := by
  obtain ⟨owner, howner, -⟩ := h
  obtain ⟨a, ha, hid, hactive, -⟩ := ownerPrincipal_eq_some.mp howner
  exact Keyed.eq_of_key ha hreceiver hid ▸ hactive

include hsender hreceiver in
theorem decideDirect_of_admitted (hblocked : ¬ t.isBlocked receiver.agentId sender)
    (hdenied : Tables.senderClassDenied (t.policies receiver.agentId) sender = none)
    (hungranted : t.Ungranted receiver.agentId sender.id) :
    ((Access.decideDirect db sender.id (t.node receiver) false later).allowed = true ↔
      t.Reaches sender receiver ∨
        receiver.status = .active ∧ effectiveContactPolicy (t.policies receiver.agentId) = .open_) ∧
    ((Access.decideDirect db sender.id (t.node receiver) false later).allowed = false →
      t.sharesRoom receiver.agentId sender →
        (Access.decideDirect db sender.id (t.node receiver) false later).reason = .roomOnly) := by
  have hunblocked := blocked_eq_none db later hsender hreceiver hblocked
  have hpath := sameOwnerPath_isSome_iff db later hsender receiver.agentId
  have hconnection := connections_isSome_iff db later (knows_agent hreceiver) (knows_sender hsender)
  have hoffer := offer_isSome_iff db later hreceiver (·.direct) fun h => by rw [h, Bool.true_or]
  unfold Access.decideDirect
  simp only [hunblocked, (senderClassAllowed_eq_none_iff hsender).mpr hdenied, Bool.false_eq_true, if_false]
  cases hown : Access.sameOwnerPath db sender.id (t.node receiver).agentId later with
  | some path =>
    have halike := hpath.mp (Option.isSome_iff_exists.mpr ⟨path, hown⟩)
    simp [Tables.Reaches, halike]
  | none =>
    have halike : ¬ t.ownedAlike receiver.agentId sender := mt hpath.mpr (Option.not_isSome_iff_eq_none.mpr hown)
    have hnone : (Access.grantsOf db sender.id (t.node receiver).agentId later).argmax Access.rank = none := by
      rw [show Access.grantsOf db sender.id (t.node receiver).agentId later = [] from grantsOf_eq_nil db later hungranted]
      rfl
    simp only [hnone, Tables.Reaches, halike, or_false]
    unfold Access.decideByRelation
    cases hhead : (Access.connections db sender.id (t.node receiver).agentId later).head? with
    | some conn =>
      have hlists := hconnection.mp (Option.isSome_iff_exists.mpr ⟨conn, hhead⟩)
      simp [hlists]
    | none =>
      have hlists : ¬ t.lists receiver.agentId sender.id := mt hconnection.mpr (Option.not_isSome_iff_eq_none.mpr hhead)
      have hopen : (t.offerTerms receiver.agentId).direct = true ↔
          effectiveContactPolicy (t.policies receiver.agentId) = .open_ := decide_eq_true_iff
      rw [hopen] at hoffer
      simp only [hlists, false_or, ← hoffer]
      cases hmade : (Access.offers db (t.node receiver).agentId later).head?.filter (·.terms.direct) with
      | some offer =>
        rw [show (Access.offers db receiver.agentId later).head?.filter (·.terms.direct) = some offer from hmade]
        simp
      | none =>
        rw [show (Access.offers db receiver.agentId later).head?.filter (·.terms.direct) = none from hmade]
        refine ⟨?_, fun _ hshared => ?_⟩
        · cases Access.sharedConversation db sender.id (t.node receiver).agentId <;> simp
        · obtain ⟨room, hroom⟩ := Option.isSome_iff_exists.mp
            (sharedConversation_isSome db (knows_agent hreceiver) (knows_sender hsender) hshared)
          rw [show Access.sharedConversation db sender.id (t.node receiver).agentId = some room from hroom]

include hsender hreceiver in
theorem decideRoomInvite_of_admitted (hblocked : ¬ t.isBlocked receiver.agentId sender)
    (hdenied : Tables.senderClassDenied (t.policies receiver.agentId) sender = none) :
    ((Access.decideRoomInvite db sender.id (t.node receiver) later).reason = .ownership ↔
      t.ownedAlike receiver.agentId sender) ∧
    ((Access.decideRoomInvite db sender.id (t.node receiver) later).allowed = true ↔
      t.Reaches sender receiver ∨
        receiver.status = .active ∧ effectiveRoomInvitePolicy (t.policies receiver.agentId) = .open_) := by
  have hunblocked := blocked_eq_none db later hsender hreceiver hblocked
  have hpath := sameOwnerPath_isSome_iff db later hsender receiver.agentId
  have hconnection := connections_isSome_iff db later (knows_agent hreceiver) (knows_sender hsender)
  have hoffer := offer_isSome_iff db later hreceiver (·.roomInvite) fun h => by rw [h, Bool.or_true]
  unfold Access.decideRoomInvite
  simp only [hunblocked, (senderClassAllowed_eq_none_iff hsender).mpr hdenied]
  cases hown : Access.sameOwnerPath db sender.id (t.node receiver).agentId later with
  | some path =>
    have halike := hpath.mp (Option.isSome_iff_exists.mpr ⟨path, hown⟩)
    simp [Tables.Reaches, halike]
  | none =>
    have halike : ¬ t.ownedAlike receiver.agentId sender := mt hpath.mpr (Option.not_isSome_iff_eq_none.mpr hown)
    have hopen : (t.offerTerms receiver.agentId).roomInvite = true ↔
        effectiveRoomInvitePolicy (t.policies receiver.agentId) = .open_ := decide_eq_true_iff
    rw [hopen] at hoffer
    simp only [Tables.Reaches, halike, or_false, iff_false, ← hoffer, ← hconnection]
    cases hmade : (Access.offers db (t.node receiver).agentId later).head?.filter (·.terms.roomInvite) with
    | some offer =>
      rw [show (Access.offers db receiver.agentId later).head?.filter (·.terms.roomInvite) = some offer from hmade]
      simp
    | none =>
      rw [show (Access.offers db receiver.agentId later).head?.filter (·.terms.roomInvite) = none from hmade]
      cases hhead : (Access.connections db sender.id (t.node receiver).agentId later).head? with
      | some conn =>
        rw [show (Access.connections db sender.id receiver.agentId later).head? = some conn from hhead]
        simp
      | none =>
        rw [show (Access.connections db sender.id receiver.agentId later).head? = none from hhead]
        simp

include hsender hreceiver in
theorem decideDirect_of_blocked (hblocked : t.isBlocked receiver.agentId sender) (contactRequest : Bool) :
    (Access.decideDirect db sender.id (t.node receiver) contactRequest later).allowed = false := by
  obtain ⟨blk, hblk⟩ := Option.isSome_iff_exists.mp ((blocked_iff db later hsender hreceiver).mpr hblocked)
  unfold Access.decideDirect
  rw [show Access.blocked db (t.node receiver).agentId sender.id later = some blk from hblk]

include hsender hreceiver in
theorem decideRoomInvite_of_blocked (hblocked : t.isBlocked receiver.agentId sender) :
    (Access.decideRoomInvite db sender.id (t.node receiver) later).allowed = false := by
  obtain ⟨blk, hblk⟩ := Option.isSome_iff_exists.mp ((blocked_iff db later hsender hreceiver).mpr hblocked)
  unfold Access.decideRoomInvite
  rw [show Access.blocked db (t.node receiver).agentId sender.id later = some blk from hblk]

include hsender hreceiver in
theorem shadowDirect_of_admitted (bypass : Bool) (hblocked : ¬ t.isBlocked receiver.agentId sender)
    (hdenied : Tables.senderClassDenied (t.policies receiver.agentId) sender = none)
    (hungranted : t.Ungranted receiver.agentId sender.id) :
    shadowDirect (t.legacyDirectAdmission sender receiver false bypass)
        (Access.decideDirect db sender.id (t.node receiver) false later) ≠ some .unexpected ↔
      t.DirectMatches sender receiver false bypass := by
  obtain ⟨hallowed, hroom⟩ := decideDirect_of_admitted db later hsender hreceiver hblocked hdenied hungranted
  generalize Access.decideDirect db sender.id (t.node receiver) false later = decision at hallowed hroom
  have hreach : t.Reaches sender receiver →
      t.lists receiver.agentId sender.id ∨ receiver.status = .active :=
    Or.imp_right (active_of_ownedAlike hreceiver)
  unfold Tables.legacyDirectAdmission Tables.DirectMatches
  simp only [hblocked, hdenied, if_false, Bool.false_eq_true, false_or, not_true_eq_false, ne_eq (none : Option LegacyDenial)]
  cases hpolicy : effectiveContactPolicy (t.policies receiver.agentId) with
  | open_ =>
    rw [hpolicy] at hallowed
    have hpass : t.Reaches sender receiver ∨ receiver.status = .active ↔
        receiver.status = .active ∨ t.lists receiver.agentId sender.id := by
      constructor
      · rintro (h | h)
        · exact (hreach h).symm
        · exact .inl h
      · rintro (h | h)
        · exact .inr h
        · exact .inl (.inl h)
    rw [and_iff_left rfl, hpass] at hallowed
    rw [shadowDirect_ok (by decide), hallowed]
  | contactsOnly =>
    rw [hpolicy] at hallowed
    simp only [reduceCtorEq, and_false, or_false] at hallowed
    dsimp only
    rw [← hallowed, Tables.Related]
    by_cases hcontact : t.isContact receiver.agentId sender
    · rw [if_pos hcontact, shadowDirect_ok (by decide)]
      simp [hcontact]
    · rw [if_neg hcontact]
      by_cases hsame : t.sameOwner receiver sender
      · rw [if_pos hsame, shadowDirect_ok (by decide)]
        simp [hsame]
      · rw [if_neg hsame]
        by_cases hshared : bypass = true ∧ t.sharesRoom receiver.agentId sender
        · -- the graph admits as well, or says that a room is all they share
          rw [if_pos hshared, shadowDirect_sameRoom]
          cases hdecision : decision.allowed with
          | false => simp [hcontact, hsame, hroom hdecision hshared.2]
          | true => simp [hshared]
        · rw [if_neg hshared, shadowDirect_error]
          rw [← and_assoc]
          simp [hcontact, hsame, hshared]
  | whitelist =>
    rw [hpolicy] at hallowed
    simp only [reduceCtorEq, and_false, or_false] at hallowed
    dsimp only
    rw [← hallowed, Tables.Related]
    by_cases hcontact : t.isContact receiver.agentId sender
    · rw [if_pos hcontact, shadowDirect_ok (by decide)]
      simp [hcontact]
    · rw [if_neg hcontact]
      by_cases hsame : t.sameOwner receiver sender
      · rw [if_pos hsame, shadowDirect_ok (by decide)]
        simp [hsame]
      · rw [if_neg hsame, shadowDirect_error]
        simp [hcontact, hsame]
  | closed =>
    rw [hpolicy] at hallowed
    simp only [reduceCtorEq, and_false, or_false] at hallowed
    rw [shadowDirect_error, ← hallowed, Bool.not_eq_true]

include hsender hreceiver in
theorem shadowRoomInvite_of_admitted (hblocked : ¬ t.isBlocked receiver.agentId sender)
    (hdenied : Tables.senderClassDenied (t.policies receiver.agentId) sender = none) :
    shadowRoomInvite (t.legacyRoomInviteAdmission sender receiver)
        (Access.decideRoomInvite db sender.id (t.node receiver) later) ≠ some .unexpected ↔
      t.InviteMatches sender receiver := by
  obtain ⟨howner, hallowed⟩ := decideRoomInvite_of_admitted db later hsender hreceiver hblocked hdenied
  generalize Access.decideRoomInvite db sender.id (t.node receiver) later = decision at howner hallowed
  have hactive : t.ownedAlike receiver.agentId sender → receiver.status = .active := active_of_ownedAlike hreceiver
  unfold Tables.legacyRoomInviteAdmission Tables.InviteMatches
  simp only [hblocked, hdenied, if_false, false_or, not_true_eq_false, ne_eq (none : Option LegacyDenial)]
  unfold Tables.Reaches at hallowed
  cases hpolicy : effectiveRoomInvitePolicy (t.policies receiver.agentId) with
  | open_ =>
    rw [hpolicy, and_iff_left rfl] at hallowed
    rw [shadowRoomInvite_ok, hallowed]
    tauto
  | contactsOnly =>
    rw [hpolicy] at hallowed
    simp only [reduceCtorEq, and_false, or_false] at hallowed
    dsimp only
    by_cases hcontact : t.isContact receiver.agentId sender
    · have hlists : t.lists receiver.agentId sender.id := by
        obtain ⟨c, hc, hid, hpeer, -⟩ := hcontact
        exact ⟨c, hc, hid, hpeer⟩
      rw [if_pos hcontact, shadowRoomInvite_ok, hallowed]
      tauto
    · rw [if_neg hcontact, shadowRoomInvite_error, hallowed, howner]
      tauto
  | closed =>
    rw [hpolicy] at hallowed
    simp only [reduceCtorEq, and_false, or_false] at hallowed
    dsimp only
    rw [shadowRoomInvite_error, hallowed, howner]
    tauto

include hsender hreceiver in
/-- The shadow comparison logs nothing unexpected of a sender and an agent exactly if the graph's relations say of the two what the agent's policies ask. -/
theorem shadow_agrees_iff (hungranted : t.Ungranted receiver.agentId sender.id) :
    (∀ contactRequest bypass,
      shadowDirect (t.legacyDirectAdmission sender receiver contactRequest bypass)
          (Access.decideDirect db sender.id (t.node receiver) contactRequest later) ≠ some .unexpected ↔
        t.DirectMatches sender receiver contactRequest bypass) ∧
    (shadowRoomInvite (t.legacyRoomInviteAdmission sender receiver)
        (Access.decideRoomInvite db sender.id (t.node receiver) later) ≠ some .unexpected ↔
      t.InviteMatches sender receiver) := by
  by_cases hblocked : t.isBlocked receiver.agentId sender
  · refine ⟨fun contactRequest bypass => ?_, ?_⟩
    · rw [Tables.legacyDirectAdmission, if_pos hblocked, shadowDirect_error]
      exact iff_of_true (decideDirect_of_blocked db later hsender hreceiver hblocked contactRequest) (.inl hblocked)
    · rw [Tables.legacyRoomInviteAdmission, if_pos hblocked, shadowRoomInvite_error,
        decideRoomInvite_of_blocked db later hsender hreceiver hblocked]
      exact iff_of_true (fun h => absurd h Bool.false_ne_true) (.inl hblocked)
  · have hunblocked := blocked_eq_none db later hsender hreceiver hblocked
    cases hdenied : Tables.senderClassDenied (t.policies receiver.agentId) sender with
    | none =>
      refine ⟨fun contactRequest bypass => ?_,
        shadowRoomInvite_of_admitted db later hsender hreceiver hblocked hdenied⟩
      cases contactRequest with
      | false => exact shadowDirect_of_admitted db later hsender hreceiver bypass hblocked hdenied hungranted
      | true =>
        rw [Tables.legacyDirectAdmission, if_neg hblocked, if_pos rfl, shadowDirect_ok (by decide)]
        refine iff_of_true ?_ (.inr (.inl rfl))
        rw [Access.decideDirect, hunblocked]
        rfl
    | some denial =>
      have hturned : Tables.senderClassDenied (t.policies receiver.agentId) sender ≠ none := by rw [hdenied]; simp
      obtain ⟨reason, hreason⟩ := Option.ne_none_iff_exists'.mp
        (mt (senderClassAllowed_eq_none_iff hsender).mp hturned)
      refine ⟨fun contactRequest bypass => ?_, ?_⟩
      · rw [Tables.legacyDirectAdmission, if_neg hblocked]
        cases contactRequest with
        | true =>
          rw [if_pos rfl, shadowDirect_ok (by decide)]
          refine iff_of_true ?_ (.inr (.inl rfl))
          rw [Access.decideDirect, hunblocked]
          rfl
        | false =>
          rw [if_neg Bool.false_ne_true, hdenied, shadowDirect_error]
          refine iff_of_true ?_ (.inr (.inr (.inl hturned)))
          rw [Access.decideDirect, hunblocked]
          simp only [Bool.false_eq_true, if_false, hreason]
      · rw [Tables.legacyRoomInviteAdmission, if_neg hblocked, hdenied, shadowRoomInvite_error]
        refine iff_of_true ?_ (.inr (.inl hturned))
        rw [Access.decideRoomInvite, hunblocked]
        simp only [hreason]
        exact fun h => absurd h Bool.false_ne_true

end

/-- An agent, and a second one with a policy that has the first among its contacts. -/
def acquainted (policy : AgentPolicy) (status : Spaces.AgentStatus) (contacts : List Contact)
    (h : (contacts.map (·.id)).Nodup ∧ (contacts.map fun c => (c.ownerId, c.contactAgentId)).Nodup) : Tables where
  spaces := { agents :=
    { rows := [{ agentId := "ag_s", claimCode := "clm_s" }, { agentId := "ag_r", claimCode := "clm_r", status }]
      distinct := show ["ag_s", "ag_r"].Nodup by decide } }
  policies _ := policy
  contacts := { rows := contacts, distinct := h.1 }
  blocks := {}
  roomMembers := {}
  agents_prefixed := by
    intro a ha
    rcases List.mem_cons.mp ha with rfl | ha
    · decide +kernel
    · obtain rfl := List.mem_singleton.mp ha
      show "ag_r".startsWith "ag_" = true
      decide +kernel
  users_prefixed := by simp
  organization_space := by simp
  uq_contact := h.2
  uq_block := List.nodup_nil
  uq_room_member := List.nodup_nil
  blocks_typed := by simp

def stranger : Principal := { id := "ag_s", type := .agent }

def closedAgent : Tables :=
  acquainted { contactPolicy := some .closed, roomInvitePolicy := some .closed } .active
    [{ id := 1, ownerId := "ag_r", contactAgentId := "ag_s" }] (by decide)

def pausedAgent : Tables := acquainted { contactPolicy := some .open_ } .paused [] (by decide)

def recipient (status : Spaces.AgentStatus) : Spaces.Agent := { agentId := "ag_r", claimCode := "clm_r", status }

/-- A closed agent admits a contact by its connection, and a paused one makes no offer. -/
theorem closed_and_paused_differ :
    (closedAgent.Knows stranger ∧ recipient .active ∈ closedAgent.spaces.agents) ∧
    (closedAgent.legacyDirectAdmission stranger (recipient .active) false true = .error .agentClosedToNewContacts ∧
      shadowDirect (closedAgent.legacyDirectAdmission stranger (recipient .active) false true)
        (Access.decideDirect (syncAccessGraph {} closedAgent 0).graph.inOrder "ag_s" (closedAgent.node (recipient .active))
          false 0) = some .unexpected) ∧
    (closedAgent.legacyRoomInviteAdmission stranger (recipient .active) = .error .agentClosedToRoomInvites ∧
      shadowRoomInvite (closedAgent.legacyRoomInviteAdmission stranger (recipient .active))
        (Access.decideRoomInvite (syncAccessGraph {} closedAgent 0).graph.inOrder "ag_s"
          (closedAgent.node (recipient .active)) 0) = some .unexpected) ∧
    pausedAgent.legacyDirectAdmission stranger (recipient .paused) false true = .ok .openPolicy ∧
      shadowDirect (pausedAgent.legacyDirectAdmission stranger (recipient .paused) false true)
        (Access.decideDirect (syncAccessGraph {} pausedAgent 0).graph.inOrder "ag_s" (pausedAgent.node (recipient .paused))
          false 0) = some .unexpected := by
  refine ⟨⟨?_, ?_⟩, ⟨?_, ?_⟩, ⟨?_, ?_⟩, ?_, ?_⟩ <;> decide +kernel

/-- An agent that only contacts reach, and a contact of it. -/
def reservedAgent : Tables := acquainted {} .active [{ id := 1, ownerId := "ag_r", contactAgentId := "ag_s" }] (by decide)

theorem contact_admitted_by_both :
    shadowDirect (reservedAgent.legacyDirectAdmission stranger (recipient .active) false true)
        (Access.decideDirect (syncAccessGraph {} reservedAgent 0).graph.backwards "ag_s"
          (reservedAgent.node (recipient .active)) false 5) ≠ some .unexpected ∧
      reservedAgent.legacyDirectAdmission stranger (recipient .active) false true = .ok .contact := by
  have hknows : reservedAgent.Knows stranger := by decide +kernel
  have hrecipient : recipient .active ∈ reservedAgent.spaces.agents := by decide +kernel
  have hagree := shadow_agrees_iff (syncAccessGraph {} reservedAgent 0).graph.backwards 5 hknows hrecipient
    (by decide +kernel)
  exact ⟨(hagree.1 false true).mpr (by decide +kernel), by decide +kernel⟩

end BotCord.Admission
