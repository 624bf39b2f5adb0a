import BotCord.Contacts.Service

/-!
# Contacts are mutual and typed

Both contacts of a pair come and go together, so an acceptance that finds one of them finds the other, and what it does is to join the pair whichever way the insertion treats a duplicate. Every way in but one gives the contacts the kinds of their ids. The agent's own `accept_request` gives them the default of the columns, which is wrong where a human had asked the agent.
-/

namespace BotCord.Contacts

open Rooms (Participant ApprovalState)
open Subscriptions (ParticipantType)
open Spaces (UserId AgentId Instant)

def contactOf (owner peer : Participant) : Contact where
  ownerType := participantTypeFor owner
  peerType := participantTypeFor peer

def ContactRequest.Typed (r : ContactRequest) : Prop :=
  r.fromType = participantTypeFor r.fromAgentId ∧ r.toType = participantTypeFor r.toAgentId

def Approval.Typed (e : Approval) : Prop :=
  ∀ p ∈ e.contactRequest, p.fromParticipantId ≠ .agent e.agentId ∧
    ∀ fromType ∈ p.fromType, fromType = participantTypeFor p.fromParticipantId

namespace Store

variable (s : Store)

def Typed : Prop := ∀ a b row, s.contacts a b = some row → row = contactOf a b

def Mutual (a b : Participant) : Prop := s.contacts a b ≠ none ∧ s.contacts b a ≠ none
deriving Decidable

def join (a b : Participant) : Store :=
  (s.inSavepoint (·.insertContact a b (contactOf a b))).inSavepoint (·.insertContact b a (contactOf b a))

end Store

structure Inv (s : Store) : Prop where
  typed : s.Typed
  symmetric : ∀ a b, s.contacts a b = none → s.contacts b a = none
  requests : ∀ r ∈ s.requests, r.Typed
  approvals : ∀ e ∈ s.approvals, e.Typed

/-! ### Writes -/

section Writes

variable {s : Store} {a b x y : Participant} {row : Contact}

theorem inSavepoint_insertContact : s.inSavepoint (·.insertContact a b row) =
    if s.contacts a b = none then s.setContact a b (some row) else s := by
  show (if s.contacts a b = none then some (s.setContact a b (some row)) else none).getD s = _
  split
  · rfl
  · rfl

theorem contacts_setContact {row : Option Contact} :
    (s.setContact a b row).contacts x y = if x = a ∧ y = b then row else s.contacts x y := by
  simp only [Store.setContact, Function.update_apply]
  by_cases hx : x = a
  · subst hx
    simp only [true_and, if_true, Function.update_apply]
  · simp only [hx, false_and, if_false]

theorem contacts_inSavepoint : (s.inSavepoint (·.insertContact a b row)).contacts x y =
    if s.contacts x y = none ∧ x = a ∧ y = b then some row else s.contacts x y := by
  rw [inSavepoint_insertContact]
  by_cases hpair : x = a ∧ y = b
  · obtain ⟨rfl, rfl⟩ := hpair
    simp only [and_self, and_true]
    split
    · rw [contacts_setContact, if_pos ⟨rfl, rfl⟩]
    · rfl
  · have hnot : ¬ (s.contacts x y = none ∧ x = a ∧ y = b) := fun h => hpair h.2
    rw [if_neg hnot]
    split
    · rw [contacts_setContact, if_neg hpair]
    · rfl

theorem contacts_join : (s.join a b).contacts x y =
    if s.contacts x y = none ∧ s(x, y) = s(a, b) then some (contactOf x y) else s.contacts x y := by
  simp only [Store.join, contacts_inSavepoint, Sym2.eq_iff]
  by_cases hnone : s.contacts x y = none
  · by_cases hab : x = a ∧ y = b
    · obtain ⟨rfl, rfl⟩ := hab
      simp [hnone]
    · by_cases hba : x = b ∧ y = a
      · obtain ⟨rfl, rfl⟩ := hba
        simp [hnone, hab]
      · simp [hnone, hab, hba]
  · simp [hnone]

theorem join_eq : s.join a b = { s with contacts := (s.join a b).contacts } := by
  simp only [Store.join, inSavepoint_insertContact]
  split
  · split
    · rfl
    · rfl
  · split
    · rfl
    · rfl

theorem requests_join : (s.join a b).requests = s.requests := by rw [join_eq]

theorem approvals_join : (s.join a b).approvals = s.approvals := by rw [join_eq]

theorem mutual_join : (s.join a b).Mutual a b := by
  constructor
  · rw [contacts_join]
    by_cases h : s.contacts a b = none <;> simp [h]
  · rw [contacts_join, Sym2.eq_swap]
    by_cases h : s.contacts b a = none <;> simp [h]

theorem typed_inSavepoint (h : s.Typed) : (s.inSavepoint (·.insertContact a b (contactOf a b))).Typed := by
  intro x y row hrow
  rw [contacts_inSavepoint] at hrow
  split at hrow
  · rename_i hnew
    obtain ⟨-, rfl, rfl⟩ := hnew
    exact (Option.some.inj hrow).symm
  · exact h x y row hrow

theorem typed_join (h : s.Typed) : (s.join a b).Typed := typed_inSavepoint (typed_inSavepoint h)

theorem symmetric_join (h : ∀ x y, s.contacts x y = none → s.contacts y x = none) :
    ∀ x y, (s.join a b).contacts x y = none → (s.join a b).contacts y x = none := by
  intro x y hnone
  rw [contacts_join] at hnone ⊢
  split at hnone
  · cases hnone
  · rename_i hnot
    rw [if_neg fun hother => hnot ⟨hnone, Sym2.eq_swap.trans hother.2⟩]
    exact h x y hnone

theorem insertContact_of_none (h : s.contacts a b = none) :
    s.insertContact a b row = some (s.setContact a b (some row)) := if_pos h

theorem insertContact_of_ne (h : s.contacts a b ≠ none) : s.insertContact a b row = none := if_neg h

theorem insertBoth_of_none (hab : s.contacts a b = none) (hba : s.contacts b a = none) (hne : a ≠ b) :
    (s.insertContact a b (contactOf a b)).bind (·.insertContact b a (contactOf b a)) = some (s.join a b) := by
  have hba' : (s.setContact a b (some (contactOf a b))).contacts b a = none := by
    rw [contacts_setContact, if_neg fun h => hne h.1.symm]
    exact hba
  rw [Store.join, inSavepoint_insertContact, inSavepoint_insertContact, insertContact_of_none hab, Option.bind_some,
    insertContact_of_none hba', if_pos hab, if_pos hba']

theorem join_of_mutual (h : s.Mutual a b) : s.join a b = s := by
  rw [Store.join, inSavepoint_insertContact, inSavepoint_insertContact, if_neg h.1, if_neg h.2]

/-- Where the contacts come in pairs, inserting both in one transaction joins the pair, also when the transaction fails. -/
theorem insertBoth_getD (hsymmetric : ∀ x y, s.contacts x y = none → s.contacts y x = none) (hne : a ≠ b) :
    ((s.insertContact a b (contactOf a b)).bind (·.insertContact b a (contactOf b a))).getD s = s.join a b := by
  by_cases hab : s.contacts a b = none
  · rw [insertBoth_of_none hab (hsymmetric a b hab) hne, Option.getD_some]
  · have hba : s.contacts b a ≠ none := fun h => hab (hsymmetric b a h)
    rw [insertContact_of_ne hab, Option.bind_none, Option.getD_none, join_of_mutual ⟨hab, hba⟩]

end Writes

/-- What a call does to contacts, requests and approvals, where every insertion is typed. -/
inductive Effect (s : Store) : Store → Prop
  /-- What is new is pending. -/
  | asked {t : Store} (contacts : t.contacts = s.contacts)
      (requests : ∀ r ∈ t.requests, r ∈ s.requests ∨ r.state = .pending ∧ r.Typed)
      (approvals : ∀ e ∈ t.approvals, e ∈ s.approvals ∨ e.state = .pending ∧ e.Typed) : Effect s t
  | rejected (r : ContactRequest) (hr : r ∈ s.requests) (hpending : r.state = .pending) :
      Effect s (s.setRequest r.id .rejected)
  | accepted (r : ContactRequest) (hr : r ∈ s.requests) (hpending : r.state = .pending) {a b : Participant}
      (hpair : s(a, b) = s(r.fromAgentId, r.toAgentId)) : Effect s ((s.setRequest r.id .accepted).join a b)
  | refused (e : Approval) (he : e ∈ s.approvals) (hpending : e.state = .pending) :
      Effect s (s.setApproval e.id .rejected)
  | approved (e : Approval) (he : e ∈ s.approvals) (hpending : e.state = .pending) (p : Payload)
      (hp : p ∈ e.contactRequest) :
      Effect s ((s.setApproval e.id .approved).join (.agent e.agentId) p.fromParticipantId)
  | settled (e : Approval) (he : e ∈ s.approvals) (hpending : e.state = .pending) (hp : e.contactRequest = none) :
      Effect s (s.setApproval e.id .approved)
  | redeemed {t : Store} (code : String) (invite : FriendInvite) (agentId : AgentId) (hinvite : s.invites code = some invite)
      (contacts : t.contacts = (s.join (.agent agentId) invite.creatorAgentId).contacts) (requests : t.requests = s.requests)
      (approvals : t.approvals = s.approvals) (redemptions : t.redemptions = s.redemptions ++ [(code, .agent agentId)]) :
      Effect s t
  | removed (a b : Participant) : Effect s ((s.setContact a b none).setContact b a none)

section Effects

variable {s t : Store} {answer : String}

theorem Effect.same : Effect s s := .asked rfl (fun _ => .inl) (fun _ => .inl)

variable {r : ContactRequest} {state : ContactRequestState} {id : ℕ}

theorem mem_setRequest
    (hr : r ∈ (s.setRequest id state).requests) :
    ∃ r₀ ∈ s.requests, r = if r₀.id = id then { r₀ with state } else r₀ := by
  obtain ⟨r₀, hr₀, rfl⟩ := (Keyed.mem_modify (f := fun r : ContactRequest => { r with state }) fun _ => rfl).mp hr
  exact ⟨r₀, hr₀, rfl⟩

variable {e : Approval}

theorem mem_setApproval {state : ApprovalState} (he : e ∈ (s.setApproval id state).approvals) :
    ∃ e₀ ∈ s.approvals, e = if e₀.id = id then { e₀ with state } else e₀ := by
  obtain ⟨e₀, he₀, rfl⟩ := (Keyed.mem_modify (f := fun e : Approval => { e with state }) fun _ => rfl).mp he
  exact ⟨e₀, he₀, rfl⟩

variable {message : Option String}

theorem effect_resendRequest (h : Inv s) : Effect s (s.resendRequest id message) := by
  refine .asked rfl (fun r hr => ?_) fun _ => .inl
  obtain ⟨r₀, hr₀, rfl⟩ :=
    (Keyed.mem_modify (f := fun r : ContactRequest => { r with state := .pending, message }) fun _ => rfl).mp hr
  split
  · exact .inr ⟨rfl, h.requests r₀ hr₀⟩
  · exact .inl hr₀

theorem effect_insertRequest {request : ContactRequest} (hpending : request.state = .pending) (htyped : request.Typed)
    (ht : s.insertRequest request = some t) : Effect s t := by
  obtain ⟨-, ht⟩ := Option.ite_none_right_eq_some.mp ht
  obtain ⟨u, hu, rfl⟩ := Option.map_eq_some_iff.mp ht
  refine .asked rfl (fun r hr => ?_) fun _ => .inl
  rcases (Keyed.insert?_eq_some hu).mem_iff.mp hr with hr | rfl
  · exact .inl hr
  · exact .inr ⟨hpending, htyped⟩

variable {agentId : AgentId}

theorem effect_insertApproval {ownerUserId : UserId} {contactRequest : Option Payload}
    (htyped : ∀ p ∈ contactRequest, p.fromParticipantId ≠ .agent agentId ∧
      ∀ fromType ∈ p.fromType, fromType = participantTypeFor p.fromParticipantId)
    (ht : s.insertApproval agentId ownerUserId contactRequest = some t) : Effect s t := by
  obtain ⟨u, hu, rfl⟩ := Option.map_eq_some_iff.mp ht
  refine .asked rfl (fun _ => .inl) fun e he => ?_
  rcases (Keyed.insert?_eq_some hu).mem_iff.mp he with he | rfl
  · exact .inl he
  · exact .inr ⟨rfl, htyped⟩

theorem effect_commitOr500 {inserted : Option Store} {said : String} (hinserted : ∀ u, inserted = some u → Effect s u)
    (h : commitOr500 inserted said = .ok (t, answer)) : Effect s t := by
  cases inserted with
  | none => cases h
  | some u =>
    cases h
    exact hinserted t rfl

/-! ### Every call -/

variable {userId : UserId} {peer : Participant}

theorem effect_requestContact (hinv : Inv s)
    (h : requestContact userId peer message s = .ok (t, answer)) : Effect s t := by
  unfold requestContact at h
  dsimp only at h
  split at h
  · cases h
  · split at h
    · cases h
      exact .same
    · split at h
      · cases h
        exact effect_resendRequest hinv
      · split at h
        · rename_i u hu
          cases h
          exact effect_insertRequest rfl ⟨rfl, rfl⟩ hu
        · cases h
          exact .same

theorem effect_sendContactRequest (hinv : Inv s)
    (h : sendContactRequest userId peer message s = .ok (t, answer)) : Effect s t := by
  unfold sendContactRequest at h
  split at h
  · cases h
  · split at h
    · cases h
      exact .same
    · split at h
      · exact effect_requestContact hinv h
      · split at h
        · cases h
        · split at h
          · cases h
          · split at h
            · refine effect_commitOr500 (fun u hu => effect_insertApproval ?_ hu) h
              rintro p ⟨⟩
              exact ⟨Participant.noConfusion, fun fromType hfrom => (Option.some.inj hfrom).symm⟩
            · exact effect_requestContact hinv h

theorem effect_sendContactRequestMessage {agentId peerId : AgentId} (hinv : Inv s)
    (h : sendContactRequestMessage agentId peerId message s = .ok (t, answer)) : Effect s t := by
  unfold sendContactRequestMessage at h
  split at h
  · cases h
  · split at h
    · cases h
    · rename_i hne
      split at h
      · cases h
      · split at h
        · split at h
          · cases h
          · cases h
            exact effect_resendRequest hinv
          · cases h
        · split at h
          · refine effect_commitOr500 (fun u hu => effect_insertApproval ?_ hu) h
            rintro p ⟨⟩
            exact ⟨fun heq => hne (Participant.agent.inj heq), fun fromType hfrom => by cases hfrom⟩
          · exact effect_commitOr500 (fun u hu => effect_insertRequest rfl (by exact ⟨rfl, rfl⟩) hu) h

theorem effect_sendContactRequestAsAgent (hinv : Inv s)
    (h : sendContactRequestAsAgent agentId peer message s = .ok (t, answer)) : Effect s t := by
  unfold sendContactRequestAsAgent at h
  dsimp only at h
  split_ifs at h
  split at h
  · cases h
    exact effect_resendRequest hinv
  · exact effect_commitOr500 (fun u hu => effect_insertRequest rfl (by exact ⟨rfl, rfl⟩) hu) h

theorem of_get? (h : s.requests.get? id = some r) : r ∈ s.requests ∧ r.id = id :=
  Keyed.get?_eq_some_iff.mp h

theorem acceptHumanContactRequest_eq (h : r.Typed) :
    acceptHumanContactRequest r s = (s.setRequest r.id .accepted).join r.toAgentId r.fromAgentId := by
  unfold acceptHumanContactRequest
  rw [h.1, h.2]
  rfl

variable {decision : Decision}

theorem effect_resolve {said said' : String} (hinv : Inv s) (hr : r ∈ s.requests)
    (hpending : r.state = .pending)
    (h : (match decision with
      | .approve => Except.ok (acceptHumanContactRequest r s, said)
      | .reject => .ok (rejectHumanContactRequest r s, said') : Result) = .ok (t, answer)) : Effect s t := by
  cases decision with
  | approve =>
    cases h
    rw [acceptHumanContactRequest_eq (hinv.requests r hr)]
    exact .accepted r hr hpending Sym2.eq_swap
  | reject =>
    cases h
    exact .rejected r hr hpending

variable {requestId : ℕ}

theorem effect_resolveContactRequestAsHuman (hinv : Inv s)
    (h : resolveContactRequestAsHuman userId requestId decision s = .ok (t, answer)) : Effect s t := by
  unfold resolveContactRequestAsHuman at h
  split at h
  · cases h
  · rename_i r hr
    split at h
    · cases h
    · split at h
      · cases h
      · rename_i hpending
        exact effect_resolve hinv (of_get? hr).1 (not_not.mp hpending) h

theorem effect_resolveHumanApproval (hinv : Inv s)
    (h : resolveHumanApproval userId requestId decision s = .ok (t, answer)) : Effect s t := by
  unfold resolveHumanApproval at h
  split at h
  · cases h
  · rename_i r hr
    split at h
    · cases h
    · split at h
      · cases h
      · rename_i hpending
        exact effect_resolve hinv (of_get? hr).1 (not_not.mp hpending) h

theorem effect_resolvePendingApproval {approvalId : ℕ} (hinv : Inv s)
    (h : resolvePendingApproval userId approvalId decision s = .ok (t, answer)) : Effect s t := by
  unfold resolvePendingApproval at h
  split at h
  · cases h
  · rename_i e hfound
    obtain ⟨he, rfl⟩ := Keyed.get?_eq_some_iff.mp hfound
    split at h
    · cases h
    · split at h
      · cases h
      · rename_i hpending
        have hpending := not_not.mp hpending
        split at h
        · split at h
          · rename_i p hp
            obtain ⟨hne, htype⟩ := hinv.approvals e he p hp
            have hfrom : p.fromType.getD (participantTypeFor p.fromParticipantId) = participantTypeFor p.fromParticipantId := by
              cases hp' : p.fromType with
              | none => rfl
              | some fromType => exact htype fromType hp'
            have hjoin : (approvedContacts e p (s.setApproval e.id .approved)).getD (s.setApproval e.id .approved) =
                (s.setApproval e.id .approved).join (.agent e.agentId) p.fromParticipantId := by
              unfold approvedContacts
              dsimp only
              rw [hfrom]
              exact insertBoth_getD hinv.symmetric hne.symm
            rw [hjoin] at h
            cases h
            exact .approved e he hpending p hp
          · rename_i hp
            cases h
            exact .settled e he hpending hp
        · cases h
          exact .refused e he hpending

/-- Where contacts are typed, the dashboard's insertion only fails to find what is not there. -/
theorem addUnlessThere_eq {a b : Participant} (h : s.Typed) :
    addUnlessThere a b (contactOf a b) s = some (s.inSavepoint (·.insertContact a b (contactOf a b))) := by
  rw [inSavepoint_insertContact]
  unfold addUnlessThere
  cases hrow : s.contacts a b with
  | none => simp only [reduceCtorEq, if_false, if_true, insertContact_of_none hrow]
  | some row =>
    have hrow := h a b row hrow
    simp only [hrow, if_true, reduceCtorEq, if_false]

theorem effect_acceptContactRequest (hinv : Inv s)
    (h : acceptContactRequest userId requestId s = .ok (t, answer)) : Effect s t := by
  unfold acceptContactRequest at h
  split at h
  · cases h
  · rename_i r hfound
    obtain ⟨hr, rfl⟩ := of_get? hfound
    split at h
    · cases h
    · rename_i hto
      split at h
      · cases h
      · split at h
        · cases h
        · rename_i hpending
          obtain ⟨hfrom, hto⟩ := hinv.requests r hr
          refine effect_commitOr500 (fun u hu => ?_) h
          have htyped : (s.setRequest r.id .accepted).Typed := hinv.typed
          rw [hfrom, hto] at hu
          change (addUnlessThere _ _ (contactOf _ _) _).bind (addUnlessThere _ _ (contactOf _ _)) = some u at hu
          rw [addUnlessThere_eq htyped, Option.bind_some, addUnlessThere_eq (typed_inSavepoint htyped)] at hu
          cases hu
          exact .accepted r hr (not_not.mp hpending) rfl

theorem effect_rejectContactRequest
    (h : rejectContactRequest userId requestId s = .ok (t, answer)) : Effect s t := by
  unfold rejectContactRequest at h
  split at h
  · cases h
  · rename_i r hfound
    obtain ⟨hr, rfl⟩ := of_get? hfound
    split at h
    · cases h
    · split at h
      · cases h
      · split at h
        · cases h
        · rename_i hpending
          cases h
          exact .rejected r hr (not_not.mp hpending)

theorem effect_rejectRequest (h : rejectRequest agentId requestId s = .ok (t, answer)) :
    Effect s t := by
  unfold rejectRequest at h
  split at h
  · cases h
  · rename_i r hfound
    obtain ⟨hfound, -⟩ := Option.filter_eq_some_iff.mp hfound
    obtain ⟨hr, rfl⟩ := of_get? hfound
    split at h
    · cases h
    · rename_i hpending
      cases h
      exact .rejected r hr (not_not.mp hpending)

theorem effect_redeemInviteForAgent {code : String} (hinv : Inv s)
    (h : redeemInviteForAgent code agentId s = .ok (t, answer)) : Effect s t := by
  unfold redeemInviteForAgent at h
  split at h
  · cases h
  · rename_i invite hinvite
    split at h
    · cases h
      exact .same
    · rename_i hnone
      have hnone : s.contacts (.agent agentId) invite.creatorAgentId = none := by simpa using hnone
      split at h
      · cases h
      · rename_i hne
        split at h
        · cases h
        · split at h
          · rename_i u hu
            cases h
            unfold redeemedContacts at hu
            dsimp only at hu
            rw [← Option.bind_assoc] at hu
            change ((s.insertContact _ _ (contactOf _ _)).bind (·.insertContact _ _ (contactOf _ _))).bind _ = some u at hu
            rw [insertBoth_of_none hnone (hinv.symmetric _ _ hnone) (Ne.symm hne), Option.bind_some] at hu
            obtain ⟨-, hu⟩ := Option.ite_none_left_eq_some.mp hu
            cases hu
            refine .redeemed code invite agentId hinvite rfl requests_join approvals_join ?_
            rw [join_eq]
          · cases h

theorem effect_removeContact (h : removeContact agentId peer s = .ok (t, answer)) :
    Effect s t := by
  unfold removeContact at h
  split at h
  · cases h
  · cases h
    exact .removed (.agent agentId) peer

/-- The agent that accepts was asked by an agent, or the two have both contacts already. -/
def Typeable (s : Store) : Action → Prop
  | .acceptRequest agentId requestId =>
    ∀ r ∈ s.requests, r.id = requestId → r.toAgentId = .agent agentId → r.state = .pending →
      participantTypeFor r.fromAgentId = .agent ∨ s.Mutual r.fromAgentId r.toAgentId
  | _ => True

theorem addIfMissing_eq {a b : Participant} : addIfMissing a b s = s.inSavepoint (·.insertContact a b {}) := by
  rw [inSavepoint_insertContact]
  unfold addIfMissing
  rw [inSavepoint_insertContact]
  split
  · rfl
  · rfl

theorem effect_acceptRequest (htypeable : Typeable s (.acceptRequest agentId requestId))
    (h : acceptRequest agentId requestId s = .ok (t, answer)) : Effect s t := by
  unfold acceptRequest at h
  split at h
  · cases h
  · rename_i r hfound
    obtain ⟨hfound, hto⟩ := Option.filter_eq_some_iff.mp hfound
    obtain ⟨hr, rfl⟩ := of_get? hfound
    have hto : r.toAgentId = .agent agentId := of_decide_eq_true hto
    split at h
    · cases h
    · rename_i hpending
      have hpending := not_not.mp hpending
      have hjoin : addIfMissing r.fromAgentId r.toAgentId (addIfMissing r.toAgentId r.fromAgentId (s.setRequest r.id .accepted)) =
          (s.setRequest r.id .accepted).join r.toAgentId r.fromAgentId := by
        rw [addIfMissing_eq, addIfMissing_eq]
        rcases htypeable r hr rfl hto hpending with htype | hmutual
        · unfold Store.join contactOf
          rw [htype, hto]
          rfl
        · have hmutual' : (s.setRequest r.id .accepted).Mutual r.toAgentId r.fromAgentId := hmutual.symm
          rw [join_of_mutual hmutual', inSavepoint_insertContact, inSavepoint_insertContact, if_neg hmutual'.1,
            if_neg hmutual'.2]
      rw [hjoin] at h
      cases h
      exact .accepted r hr hpending Sym2.eq_swap

theorem effect_call {a : Action} (hinv : Inv s) (htypeable : Typeable s a) (h : a.call s = .ok (t, answer)) : Effect s t := by
  cases a with
  | sendContactRequest userId peer message => exact effect_sendContactRequest hinv h
  | sendContactRequestMessage agentId peerId message => exact effect_sendContactRequestMessage hinv h
  | sendContactRequestAsAgent agentId peer message => exact effect_sendContactRequestAsAgent hinv h
  | acceptRequest agentId requestId => exact effect_acceptRequest htypeable h
  | rejectRequest agentId requestId => exact effect_rejectRequest h
  | resolveContactRequestAsHuman userId requestId decision => exact effect_resolveContactRequestAsHuman hinv h
  | resolveHumanApproval userId requestId decision => exact effect_resolveHumanApproval hinv h
  | resolvePendingApproval userId approvalId decision => exact effect_resolvePendingApproval hinv h
  | acceptContactRequest userId requestId => exact effect_acceptContactRequest hinv h
  | rejectContactRequest userId requestId => exact effect_rejectContactRequest h
  | redeemInviteForAgent code agentId => exact effect_redeemInviteForAgent hinv h
  | removeContact agentId peer => exact effect_removeContact h
  | queue agentId ownerUserId => exact effect_commitOr500 (fun u hu => effect_insertApproval (by simp) hu) h
  | user userId known =>
    cases h
    exact .asked rfl (fun _ => .inl) fun _ => .inl
  | agent agentId claimedBy =>
    cases h
    exact .asked rfl (fun _ => .inl) fun _ => .inl
  | invite code row =>
    cases h
    exact .asked rfl (fun _ => .inl) fun _ => .inl
  | tick microseconds =>
    cases h
    exact .asked rfl (fun _ => .inl) fun _ => .inl

theorem effect_apply {a : Action} (hinv : Inv s) (htypeable : Typeable s a) : Effect s (a.apply s) := by
  unfold Action.apply
  split
  · rename_i h
    exact effect_call hinv htypeable h
  · exact .same

/-! ### What is kept -/

def RequestInto (s t : Store) (state : ContactRequestState) (r : ContactRequest) : Prop :=
  r ∈ t.requests ∧ r.state = state ∧ ∀ r₀ ∈ s.requests, r₀.id = r.id → r₀.state ≠ state

def ApprovalInto (s t : Store) (state : ApprovalState) (e : Approval) : Prop :=
  e ∈ t.approvals ∧ e.state = state ∧ ∀ e₀ ∈ s.approvals, e₀.id = e.id → e₀.state ≠ state

/-- Where new contacts come from: a request or an entry that was pending, or an invite. -/
def Source (s t : Store) (pair : Sym2 Participant) : Prop :=
  (∃ r, RequestInto s t .accepted r ∧ (∃ r₀ ∈ s.requests, r₀.id = r.id ∧ r₀.state = .pending) ∧
    pair = s(r.fromAgentId, r.toAgentId)) ∨
  (∃ e p, ApprovalInto s t .approved e ∧ (∃ e₀ ∈ s.approvals, e₀.id = e.id ∧ e₀.state = .pending) ∧
    p ∈ e.contactRequest ∧ pair = s(.agent e.agentId, p.fromParticipantId)) ∨
  ∃ code invite agentId, s.invites code = some invite ∧ t.redemptions = s.redemptions ++ [(code, .agent agentId)] ∧
    pair = s(.agent agentId, invite.creatorAgentId)

/-- What a call must keep to: contacts are typed, an acceptance leaves both of a pair, a rejection none, and none comes without an acceptance. -/
structure Kept (s t : Store) : Prop where
  typed : t.Typed
  accepted : ∀ r, RequestInto s t .accepted r → t.Mutual r.fromAgentId r.toAgentId
  approved : ∀ e, ApprovalInto s t .approved e → ∀ p ∈ e.contactRequest, t.Mutual (.agent e.agentId) p.fromParticipantId
  rejected : ∀ r, RequestInto s t .rejected r → t.contacts = s.contacts
  refused : ∀ e, ApprovalInto s t .rejected e → t.contacts = s.contacts
  created : ∀ a b, s.contacts a b = none → t.contacts a b ≠ none → Source s t s(a, b)

theorem contacts_removed {a b x y : Participant} :
    ((s.setContact a b none).setContact b a none).contacts x y = if s(x, y) = s(a, b) then none else s.contacts x y := by
  simp only [contacts_setContact, Sym2.eq_iff]
  by_cases hab : x = a ∧ y = b
  · rw [if_pos (Or.inl hab), if_pos hab, ite_self]
  · by_cases hba : x = b ∧ y = a
    · rw [if_pos hba, if_pos (Or.inr hba)]
    · rw [if_neg hba, if_neg hab, if_neg (not_or.mpr ⟨hab, hba⟩)]

theorem Effect.inv (hinv : Inv s) (h : Effect s t) : Inv t := by
  cases h with
  | asked hcontacts hrequests happrovals =>
    refine ⟨?_, ?_, fun r hr => ?_, fun e he => ?_⟩
    · unfold Store.Typed
      rw [hcontacts]
      exact hinv.typed
    · rw [hcontacts]
      exact hinv.symmetric
    · exact (hrequests r hr).elim (hinv.requests r) And.right
    · exact (happrovals e he).elim (hinv.approvals e) And.right
  | rejected r hr hpending =>
    refine ⟨hinv.typed, hinv.symmetric, fun r' hr' => ?_, hinv.approvals⟩
    obtain ⟨r₀, hr₀, rfl⟩ := mem_setRequest hr'
    split
    · exact hinv.requests r₀ hr₀
    · exact hinv.requests r₀ hr₀
  | accepted r hr hpending hpair =>
    refine ⟨typed_join hinv.typed, symmetric_join hinv.symmetric, fun r' hr' => ?_, fun e he => ?_⟩
    · rw [requests_join] at hr'
      obtain ⟨r₀, hr₀, rfl⟩ := mem_setRequest hr'
      split
      · exact hinv.requests r₀ hr₀
      · exact hinv.requests r₀ hr₀
    · rw [approvals_join] at he
      exact hinv.approvals e he
  | refused e he hpending =>
    refine ⟨hinv.typed, hinv.symmetric, hinv.requests, fun e' he' => ?_⟩
    obtain ⟨e₀, he₀, rfl⟩ := mem_setApproval he'
    split
    · exact hinv.approvals e₀ he₀
    · exact hinv.approvals e₀ he₀
  | approved e he hpending p hp =>
    refine ⟨typed_join hinv.typed, symmetric_join hinv.symmetric, fun r hr => ?_, fun e' he' => ?_⟩
    · rw [requests_join] at hr
      exact hinv.requests r hr
    · rw [approvals_join] at he'
      obtain ⟨e₀, he₀, rfl⟩ := mem_setApproval he'
      split
      · exact hinv.approvals e₀ he₀
      · exact hinv.approvals e₀ he₀
  | settled e he hpending hp =>
    refine ⟨hinv.typed, hinv.symmetric, hinv.requests, fun e' he' => ?_⟩
    obtain ⟨e₀, he₀, rfl⟩ := mem_setApproval he'
    split
    · exact hinv.approvals e₀ he₀
    · exact hinv.approvals e₀ he₀
  | redeemed code invite agentId hinvite hcontacts hrequests happrovals hredemptions =>
    refine ⟨?_, ?_, ?_, ?_⟩
    · unfold Store.Typed
      rw [hcontacts]
      exact typed_join hinv.typed
    · rw [hcontacts]
      exact symmetric_join hinv.symmetric
    · rw [hrequests]
      exact hinv.requests
    · rw [happrovals]
      exact hinv.approvals
  | removed a b =>
    refine ⟨fun x y row hrow => ?_, fun x y hnone => ?_, hinv.requests, hinv.approvals⟩
    · rw [contacts_removed] at hrow
      exact hinv.typed x y row (Option.ite_none_left_eq_some.mp hrow).2
    · rw [contacts_removed] at hnone ⊢
      rw [Sym2.eq_swap]
      split
      · rfl
      · rename_i hne
        rw [if_neg hne] at hnone
        exact hinv.symmetric x y hnone

theorem not_requestInto_of_eq (h : t.requests = s.requests) :
    ¬ RequestInto s t state r := fun hinto => hinto.2.2 r (h ▸ hinto.1) rfl hinto.2.1

theorem not_approvalInto_of_eq {state : ApprovalState} (h : t.approvals = s.approvals) :
    ¬ ApprovalInto s t state e := fun hinto => hinto.2.2 e (h ▸ hinto.1) rfl hinto.2.1

theorem requestInto_setRequest {r r' : ContactRequest} {state state' : ContactRequestState} (hr : r ∈ s.requests)
    (h : RequestInto s (s.setRequest r.id state) state' r') : state = state' ∧ r' = { r with state } := by
  obtain ⟨hmem, hstate, hbefore⟩ := h
  obtain ⟨r₀, hr₀, rfl⟩ := mem_setRequest hmem
  split at hstate
  · rename_i hid
    cases Keyed.eq_of_key hr₀ hr hid
    exact ⟨hstate, if_pos rfl⟩
  · rename_i hid
    rw [if_neg hid] at hbefore
    exact absurd hstate (hbefore r₀ hr₀ rfl)

theorem approvalInto_setApproval {e e' : Approval} {state state' : ApprovalState} (he : e ∈ s.approvals)
    (h : ApprovalInto s (s.setApproval e.id state) state' e') : state = state' ∧ e' = { e with state } := by
  obtain ⟨hmem, hstate, hbefore⟩ := h
  obtain ⟨e₀, he₀, rfl⟩ := mem_setApproval hmem
  split at hstate
  · rename_i hid
    cases Keyed.eq_of_key he₀ he hid
    exact ⟨hstate, if_pos rfl⟩
  · rename_i hid
    rw [if_neg hid] at hbefore
    exact absurd hstate (hbefore e₀ he₀ rfl)

theorem requestInto_of_pending (hr : r ∈ s.requests)
    (hpending : r.state = .pending) (hstate : state ≠ .pending) :
    RequestInto s (s.setRequest r.id state) state { r with state } := by
  refine ⟨?_, rfl, fun r₀ hr₀ hid hinto => ?_⟩
  · have hmem := Keyed.mem_modify_of_mem (p := (·.id = r.id)) (f := fun r : ContactRequest => { r with state })
      (fun _ => rfl) hr
    rwa [if_pos rfl] at hmem
  · cases Keyed.eq_of_key hr₀ hr hid
    exact hstate (hinto.symm.trans hpending)

theorem approvalInto_of_pending {state : ApprovalState} (he : e ∈ s.approvals)
    (hpending : e.state = .pending) (hstate : state ≠ .pending) :
    ApprovalInto s (s.setApproval e.id state) state { e with state } := by
  refine ⟨?_, rfl, fun e₀ he₀ hid hinto => ?_⟩
  · have hmem := Keyed.mem_modify_of_mem (p := (·.id = e.id)) (f := fun e : Approval => { e with state })
      (fun _ => rfl) he
    rwa [if_pos rfl] at hmem
  · cases Keyed.eq_of_key he₀ he hid
    exact hstate (hinto.symm.trans hpending)

theorem pair_of_created {a b x y : Participant} (hnone : s.contacts x y = none) (hsome : (s.join a b).contacts x y ≠ none) :
    s(x, y) = s(a, b) := by
  rw [contacts_join] at hsome
  by_contra hne
  rw [if_neg fun h => hne h.2] at hsome
  exact hsome hnone

theorem Effect.kept (hinv : Inv s) (h : Effect s t) : Kept s t := by
  have htyped := (h.inv hinv).typed
  cases h with
  | asked hcontacts hrequests happrovals =>
    have hrequest : ∀ state r, RequestInto s t state r → state = .pending := by
      rintro state r ⟨hr, hstate, hbefore⟩
      rcases hrequests r hr with hr | ⟨hpending, -⟩
      · exact absurd hstate (hbefore r hr rfl)
      · exact hstate.symm.trans hpending
    have happroval : ∀ state e, ApprovalInto s t state e → state = .pending := by
      rintro state e ⟨he, hstate, hbefore⟩
      rcases happrovals e he with he | ⟨hpending, -⟩
      · exact absurd hstate (hbefore e he rfl)
      · exact hstate.symm.trans hpending
    exact ⟨htyped, fun r hr => (nomatch hrequest _ r hr), fun e he => (nomatch happroval _ e he), fun _ _ => hcontacts,
      fun _ _ => hcontacts, fun a b hnone hsome => absurd (hcontacts ▸ hnone : t.contacts a b = none) hsome⟩
  | rejected r hr hpending =>
    exact ⟨htyped, fun r' hr' => (nomatch (requestInto_setRequest hr hr').1), fun e he => absurd he (not_approvalInto_of_eq rfl),
      fun _ _ => rfl, fun _ _ => rfl, fun a b hnone hsome => absurd hnone hsome⟩
  | accepted r hr hpending hpair =>
    rename_i a b
    have hinto : ∀ state r', RequestInto s ((s.setRequest r.id .accepted).join a b) state r' →
        .accepted = state ∧ r' = { r with state := .accepted } := by
      rintro state r' ⟨hmem, hrest⟩
      rw [requests_join] at hmem
      exact requestInto_setRequest hr ⟨hmem, hrest⟩
    have hnot : ∀ state e, ¬ ApprovalInto s ((s.setRequest r.id .accepted).join a b) state e := fun state e =>
      not_approvalInto_of_eq approvals_join
    refine ⟨htyped, fun r' hr' => ?_, fun e he => absurd he (hnot _ e), fun r' hr' => (nomatch (hinto _ r' hr').1),
      fun e he => absurd he (hnot _ e), fun x y hnone hsome => .inl ⟨{ r with state := .accepted }, ?_, ⟨r, hr, rfl, hpending⟩, ?_⟩⟩
    · obtain ⟨-, rfl⟩ := hinto _ r' hr'
      rcases Sym2.eq_iff.mp hpair with ⟨rfl, rfl⟩ | ⟨rfl, rfl⟩
      · exact mutual_join
      · exact mutual_join.symm
    · obtain ⟨hmem, hrest⟩ := requestInto_of_pending hr hpending (by decide : ContactRequestState.accepted ≠ .pending)
      refine ⟨?_, hrest⟩
      rwa [requests_join]
    · exact (pair_of_created (s := s.setRequest r.id .accepted) hnone hsome).trans hpair
  | refused e he hpending =>
    exact ⟨htyped, fun r hr => absurd hr (not_requestInto_of_eq rfl), fun e' he' => (nomatch (approvalInto_setApproval he he').1),
      fun _ _ => rfl, fun _ _ => rfl, fun a b hnone hsome => absurd hnone hsome⟩
  | approved e he hpending p hp =>
    have hinto : ∀ state e', ApprovalInto s ((s.setApproval e.id .approved).join (.agent e.agentId) p.fromParticipantId) state e' →
        .approved = state ∧ e' = { e with state := .approved } := by
      rintro state e' ⟨hmem, hrest⟩
      rw [approvals_join] at hmem
      exact approvalInto_setApproval he ⟨hmem, hrest⟩
    have hnot : ∀ state r, ¬ RequestInto s ((s.setApproval e.id .approved).join (.agent e.agentId) p.fromParticipantId) state r :=
      fun state r => not_requestInto_of_eq requests_join
    refine ⟨htyped, fun r hr => absurd hr (hnot _ r), fun e' he' q hq => ?_, fun r hr => absurd hr (hnot _ r),
      fun e' he' => (nomatch (hinto _ e' he').1), fun x y hnone hsome =>
        .inr (.inl ⟨{ e with state := .approved }, p, ?_, ⟨e, he, rfl, hpending⟩, hp,
          pair_of_created (s := s.setApproval e.id .approved) hnone hsome⟩)⟩
    · obtain ⟨-, rfl⟩ := hinto _ e' he'
      cases Option.some.inj (Eq.trans (Eq.symm hp) hq)
      exact mutual_join
    · obtain ⟨hmem, hrest⟩ := approvalInto_of_pending he hpending (by decide : ApprovalState.approved ≠ .pending)
      refine ⟨?_, hrest⟩
      rwa [approvals_join]
  | settled e he hpending hp =>
    refine ⟨htyped, fun r hr => absurd hr (not_requestInto_of_eq rfl), fun e' he' q hq => ?_,
      fun _ _ => rfl, fun _ _ => rfl, fun a b hnone hsome => absurd hnone hsome⟩
    obtain ⟨-, rfl⟩ := approvalInto_setApproval he he'
    exact nomatch (Eq.symm hp).trans hq
  | redeemed code invite agentId hinvite hcontacts hrequests happrovals hredemptions =>
    refine ⟨htyped, fun r hr => absurd hr (not_requestInto_of_eq hrequests), fun e he => absurd he (not_approvalInto_of_eq happrovals),
      fun r hr => absurd hr (not_requestInto_of_eq hrequests), fun e he => absurd he (not_approvalInto_of_eq happrovals),
      fun x y hnone hsome => .inr (.inr ⟨code, invite, agentId, hinvite, hredemptions, ?_⟩)⟩
    rw [hcontacts] at hsome
    exact pair_of_created hnone hsome
  | removed a b =>
    refine ⟨htyped, fun r hr => absurd hr (not_requestInto_of_eq rfl), fun e he => absurd he (not_approvalInto_of_eq rfl),
      fun r hr => absurd hr (not_requestInto_of_eq rfl), fun e he => absurd he (not_approvalInto_of_eq rfl),
      fun x y hnone hsome => absurd ?_ hsome⟩
    rw [contacts_removed, hnone, ite_self]

/-- An agent that accepts the request of a human who is no contact yet gets a contact of the wrong type. -/
theorem typeable_of_typed {a : Action} (h : (a.apply s).Typed) : Typeable s a := by
  cases a with
  | acceptRequest agentId requestId =>
    rintro r hr rfl hto hpending
    by_contra hnot
    obtain ⟨htype, hmissing⟩ := not_or.mp hnot
    have hfound : (s.requests.get? r.id).filter (·.toAgentId = .agent agentId) = some r := by
      rw [Keyed.get?_key hr, Option.filter_some, if_pos (decide_eq_true hto)]
    have happly : (Action.acceptRequest agentId r.id).apply s =
        ((s.setRequest r.id .accepted).inSavepoint (·.insertContact r.toAgentId r.fromAgentId {})).inSavepoint
          (·.insertContact r.fromAgentId r.toAgentId {}) := by
      simp only [Action.apply, Action.call, acceptRequest, hfound, hpending, addIfMissing_eq, ne_eq, not_true_eq_false,
        if_false]
    rw [happly] at h
    have hne : ¬ (r.fromAgentId = r.toAgentId ∧ r.toAgentId = r.fromAgentId) := fun heq =>
      htype (by rw [heq.1, hto]; rfl)
    have hfirst : ∀ x y, ((s.setRequest r.id .accepted).inSavepoint
        (·.insertContact r.toAgentId r.fromAgentId {})).contacts x y =
        if s.contacts x y = none ∧ x = r.toAgentId ∧ y = r.fromAgentId then some {} else s.contacts x y :=
      fun x y => contacts_inSavepoint
    by_cases hback : s.contacts r.toAgentId r.fromAgentId = none
    · have hthere := (hfirst r.toAgentId r.fromAgentId).trans (if_pos ⟨hback, rfl, rfl⟩)
      have hrow := h r.toAgentId r.fromAgentId {} (by
        rw [contacts_inSavepoint, hthere]
        exact if_neg fun hsome => Option.some_ne_none _ hsome.1)
      exact htype (congrArg Contact.peerType hrow).symm
    · have hforth : s.contacts r.fromAgentId r.toAgentId = none := by
        by_contra hforth
        exact hmissing ⟨hforth, hback⟩
      have hstill := (hfirst r.fromAgentId r.toAgentId).trans ((if_neg fun hsame => hne hsame.2).trans hforth)
      have hrow := h r.fromAgentId r.toAgentId {} (by
        rw [contacts_inSavepoint, hstill]
        exact if_pos ⟨rfl, rfl, rfl⟩)
      exact htype (congrArg Contact.ownerType hrow).symm
  | _ => trivial

end Effects

section Runs

variable {s start : Store}

theorem kept_iff {a : Action} (hinv : Inv s) : Kept s (a.apply s) ↔ Typeable s a :=
  ⟨fun h => typeable_of_typed h.typed, fun h => (effect_apply hinv h).kept hinv⟩

theorem meets_kept_iff {actions : List Action} (hinv : Inv s) :
    contacts.Meets (fun s a => Kept s (a.apply s)) s actions ↔ contacts.Meets Typeable s actions := by
  induction actions generalizing s with
  | nil => exact Iff.rfl
  | cons a rest ih =>
    simp only [System.Meets, kept_iff hinv]
    refine and_congr_right fun htypeable => forall₂_congr fun t ht => ?_
    cases ht
    exact ih ((effect_apply hinv htypeable).inv hinv)

/-- In every run from tables without contacts, requests and entries: the calls all keep contacts typed, leave both contacts of a pair where a request or an entry between the two is accepted, none where it is rejected, and create none otherwise, if and only if no agent accepts itself the request of a human who is not a contact yet. -/
theorem accepted_contacts_are_mutual_and_typed (hcontacts : ∀ a b, start.contacts a b = none)
    (hrequests : ∀ r, r ∉ start.requests) (happrovals : ∀ e, e ∉ start.approvals) (actions : List Action) :
    contacts.Meets (fun s a => Kept s (a.apply s)) start actions ↔ contacts.Meets Typeable start actions := by
  refine meets_kept_iff ⟨fun a b row hrow => ?_, fun a b _ => hcontacts b a, fun r hr => absurd hr (hrequests r),
    fun e he => absurd he (happrovals e)⟩
  rw [hcontacts] at hrow
  cases hrow

/-- User 1 asks an agent that nobody has claimed; user 2 claims it, and it accepts. -/
def askedUnclaimed : List Action :=
  [.agent "ag_1" (some none), .sendContactRequest 1 (.agent "ag_1") none, .agent "ag_1" (some (some 2)),
    .acceptRequest "ag_1" 1]

theorem human_contact_typed_agent : ∃ t, contacts.run {} askedUnclaimed = some t ∧
    t.contacts (.human 1) (.agent "ag_1") = some { ownerType := .agent, peerType := .agent } ∧
    t.contacts (.agent "ag_1") (.human 1) = some { ownerType := .agent, peerType := .agent } ∧ ¬ t.Typed := by
  have hrows : ∃ t, contacts.run {} askedUnclaimed = some t ∧
      t.contacts (.human 1) (.agent "ag_1") = some { ownerType := .agent, peerType := .agent } ∧
      t.contacts (.agent "ag_1") (.human 1) = some { ownerType := .agent, peerType := .agent } := by
    refine ⟨_, rfl, ?_, ?_⟩ <;> decide +kernel
  obtain ⟨t, hrun, hforth, hback⟩ := hrows
  exact ⟨t, hrun, hforth, hback, fun htyped => nomatch htyped _ _ _ hforth⟩

/-- The owner of the agent accepts in its place. -/
def acceptedByOwner : List Action :=
  [.agent "ag_1" (some none), .sendContactRequest 1 (.agent "ag_1") none, .agent "ag_1" (some (some 2)),
    .acceptContactRequest 2 1, .removeContact "ag_1" (.human 1)]

theorem accepted_contacts_are_mutual_and_typed_by_owner :
    contacts.Meets (fun s a => Kept s (a.apply s)) {} acceptedByOwner := by
  refine (accepted_contacts_are_mutual_and_typed (fun _ _ => rfl) (fun _ => Keyed.not_mem_empty)
    (fun _ => Keyed.not_mem_empty) acceptedByOwner).mpr ?_
  simp only [acceptedByOwner, System.Meets, Typeable, true_and]
  intros
  trivial

end Runs

end BotCord.Contacts
