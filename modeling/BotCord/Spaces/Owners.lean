import BotCord.Spaces.Answers
import BotCord.Spaces.Hub

/-!
# Owners follow bindings

The owner of an agent is stored twice: in the column that binds it to a user, and in a row of the ownership table that is written when the agent joins its first space. The projection prefers the row, and nothing ever takes the row back. An agent that is unbound stays with its former owner, even after another user has claimed it.
-/

namespace BotCord.Spaces

open Access (decideDirect decideExecutionMany decideExecutionMany_cases decideByRelation_reason sameOwnerPath_isSome_iff)
open Tables

/-- Every row of the ownership table names the user the agent is bound to. -/
def Followed (t : Tables) : Prop :=
  ∀ o ∈ t.ownerships, ∃ a ∈ t.agents, a.agentId = o.agentId ∧ ∃ userId, a.userId = some userId ∧ o.owner = .user userId

/-- The agent that is unbound has no row in the ownership table. -/
def UnbindsUnowned (h : Hub) : Action → Prop
  | .call _ (.unbindAgentFromUser agentId userId checks _) =>
    Unbinds h.tables agentId userId checks → ∀ o ∈ h.tables.ownerships, o.agentId ≠ agentId
  | _ => True

instance (h : Hub) (a : Action) : Decidable (UnbindsUnowned h a) := by
  unfold UnbindsUnowned
  split <;> infer_instance

section Steps

variable {now : Instant} {t t' : Tables}

theorem Change.bound (h : Change now t t') {a : Agent} (ha : a ∈ t.agents) {userId : UserId}
    (hbound : a.userId = some userId) : ∃ a' ∈ t'.agents, a'.agentId = a.agentId ∧ a'.userId = some userId := by
  cases h with
  | agent hadds => exact ⟨a, hadds.mem_iff.mpr (.inl ha), rfl, hbound⟩
  | @bind b _ hb hfree _ =>
    refine ⟨a, Table.mem_update_of_not ha fun hid => ?_, rfl, hbound⟩
    rw [Keyed.eq_of_key ha hb hid, hfree] at hbound
    cases hbound
  | agentStatus =>
    refine ⟨_, Table.mem_update.mpr ⟨a, ha, rfl⟩, ?_⟩
    split
    · exact ⟨rfl, hbound⟩
    · exact ⟨rfl, hbound⟩
  | _ => exact ⟨a, ha, rfl, hbound⟩

theorem Followed.change (hf : Followed t) (h : Change now t t') : Followed t' := by
  have hkeep : ∀ o ∈ t.ownerships,
      ∃ a ∈ t'.agents, a.agentId = o.agentId ∧ ∃ userId, a.userId = some userId ∧ o.owner = .user userId := by
    intro o ho
    obtain ⟨a, ha, hid, userId, hbound, howner⟩ := hf o ho
    obtain ⟨a', ha', hid', hbound'⟩ := h.bound ha hbound
    exact ⟨a', ha', hid'.trans hid, userId, hbound', howner⟩
  cases h with
  | own ha hu hbound hadds =>
    intro o ho
    rcases hadds.mem_iff.mp ho with ho | rfl
    · exact hkeep o ho
    · exact ⟨_, ha, rfl, _, hbound, rfl⟩
  | _ => exact hkeep

theorem Followed.changes (hf : Followed t) (h : Changes now t t') : Followed t' := by
  induction h with
  | refl => exact hf
  | tail _ hstep ih => exact ih.change hstep

theorem Followed.unbind (hf : Followed t) {agentId : AgentId} {claimCode : String}
    (hnone : ∀ o ∈ t.ownerships, o.agentId ≠ agentId) : Followed (t.unbind agentId claimCode) := by
  intro o ho
  obtain ⟨a, ha, hid, hbound⟩ := hf o ho
  exact ⟨a, Table.mem_update_of_not ha fun heq => hnone o ho (hid.symm.trans heq), hid, hbound⟩

theorem Followed.step {h h' : Hub} {a : Action} (hf : Followed h.tables) (hguard : UnbindsUnowned h a)
    (hstep : hub.step h a = some h') : Followed h'.tables := by
  cases stepped hstep with
  | committed hclock hcall =>
    rcases atomically_perform hcall with hchanges | ⟨agentId, userId, checks, claimCode, rfl, hunbinds, rfl⟩
    · exact hf.changes hchanges
    · exact hf.unbind (hguard hunbinds)
  | failed => exact hf
  | projected => exact hf
  | related => exact hf

/-- Where the rows follow the bindings, an agent is owned by the user it is bound to. -/
theorem Followed.ownedBy_iff (hf : Followed t) {a : Agent} (ha : a ∈ t.agents) {userId : UserId} :
    t.OwnedBy a userId ↔ a.userId = some userId := by
  constructor
  · rintro (⟨o, ho, hid, howner⟩ | ⟨-, hbound⟩)
    · obtain ⟨b, hb, hbid, boundTo, hbound, hsame⟩ := hf o ho
      obtain rfl := Keyed.eq_of_key ha hb (hid.symm.trans hbid.symm)
      rw [hbound, Owner.user.inj (hsame.symm.trans howner)]
    · exact hbound
  · intro hbound
    by_cases hrow : ∃ o ∈ t.ownerships, o.agentId = a.agentId
    · obtain ⟨o, ho, hid⟩ := hrow
      obtain ⟨b, hb, hbid, boundTo, hbound', hsame⟩ := hf o ho
      obtain rfl := Keyed.eq_of_key ha hb (hid.symm.trans hbid.symm)
      rw [hbound, Option.some.injEq] at hbound'
      exact .inl ⟨o, ho, hid, hbound' ▸ hsame⟩
    · push Not at hrow
      exact .inr ⟨hrow, hbound⟩

end Steps

section Decisions

variable {graph : Access.Graph} {now : Instant}

theorem sameOwner_of_decideDirect (hsole : graph.SoleOwners now) (db : Access.Session graph) {senderId : PrincipalId}
    {agent : Access.Agent} {contactRequest : Bool}
    (h : (decideDirect db senderId agent contactRequest now).reason = .ownership) :
    graph.SameOwner now senderId agent.agentId := by
  unfold decideDirect at h
  split at h
  · cases h
  split at h
  · cases h
  split at h
  · rename_i denied hdenied
    unfold Access.senderClassAllowed at hdenied
    split_ifs at hdenied
    all_goals
      obtain rfl := Option.some.inj hdenied
      cases h
  split at h
  · rename_i path hpath
    exact (sameOwnerPath_isSome_iff hsole db senderId agent.agentId).mp (by rw [hpath]; rfl)
  · split at h
    · cases h
    · exact absurd h (decideByRelation_reason db senderId agent now).1

theorem sameOwner_of_decideExecutionMany (hsole : graph.SoleOwners now) (db : Access.Session graph)
    {agentId senderId : PrincipalId} {senderIds : Finset PrincipalId} {decision : Access.Decision}
    (hdecision : decision ∈ decideExecutionMany db agentId senderIds now senderId) (h : decision.reason = .ownership) :
    graph.SameOwner now senderId agentId := by
  by_cases hasked : senderId ∈ senderIds
  · obtain ⟨decision', hdecision', hcases⟩ := decideExecutionMany_cases hsole db agentId hasked
    obtain rfl := Option.some.inj (hdecision.symm.trans hdecision')
    rcases hcases with ⟨hsame, -⟩ | ⟨-, best, -, rfl⟩ | ⟨-, -, rfl⟩
    · exact hsame
    · cases h
    · cases h
  · unfold decideExecutionMany at hdecision
    rw [if_pos hasked] at hdecision
    cases hdecision

end Decisions

/-- The human of the user an active agent is bound to. -/
def CurrentOwner (t : Tables) (agentId : AgentId) (human : PrincipalId) : Prop :=
  ∃ a ∈ t.agents, a.agentId = agentId ∧ a.status = .active ∧ ∃ u ∈ t.users, a.userId = some u.id ∧ u.humanId = human
deriving Decidable

/-- The sender is the current owner of the agent, or an agent of the current owner. -/
def OfCurrentOwner (t : Tables) (senderId agentId : PrincipalId) : Prop :=
  ∃ human, CurrentOwner t agentId human ∧ (human = senderId ∨ CurrentOwner t senderId human)

/-- In every run in which agents with a row in the ownership table are not unbound, an agent is owned in the graph by the human of the user it is bound to and by nobody else, and both decisions give ownership to nobody but that human and the agents of the same user. -/
theorem owners_follow_bindings {clock now : Instant} {actions : List Action} {h : Hub}
    (hmeets : hub.Meets UnbindsUnowned (Hub.start clock) actions) (hrun : hub.run (Hub.start clock) actions = some h) :
    (∀ agentId human, h.graph.graph.OwnedBy now agentId human ↔ CurrentOwner h.tables agentId human) ∧
      (∀ a ∈ h.tables.agents, a.status = .active → ∀ userId, a.userId = some userId →
        ∃ u ∈ h.tables.users, u.id = userId ∧ h.graph.graph.OwnedBy now a.agentId u.humanId) ∧
      (∀ a ∈ h.tables.agents, a.userId = none → ∀ human, ¬ h.graph.graph.OwnedBy now a.agentId human) ∧
      (∀ (db : Access.Session h.graph.graph) senderId (agent : Access.Agent) contactRequest,
        (decideDirect db senderId agent contactRequest now).reason = .ownership →
          OfCurrentOwner h.tables senderId agent.agentId) ∧
      ∀ (db : Access.Session h.graph.graph) agentId senderIds senderId,
        ∀ decision ∈ decideExecutionMany db agentId senderIds now senderId, decision.reason = .ownership →
          OfCurrentOwner h.tables senderId agentId := by
  have hsound := (Hub.sound_start clock).run hrun
  have hf : Followed h.tables := by
    refine hub.run_invariant_of_meets (P := fun s => Followed s.tables) (fun s a s' hf hguard hstep => hf.step hguard hstep)
      ?_ hmeets hrun
    intro o ho
    exact absurd ho Keyed.not_mem_empty
  obtain ⟨time, -, hmirrors⟩ := hsound.mirrors
  have howned : ∀ agentId human, h.graph.graph.OwnedBy now agentId human ↔ CurrentOwner h.tables agentId human := by
    intro agentId human
    rw [hmirrors.ownedBy_iff hsound.consistent]
    refine exists_congr fun a => and_congr_right fun ha => and_congr_right fun _ => and_congr_right fun _ => ?_
    refine exists_congr fun u => and_congr_right fun _ => and_congr_left fun _ => ?_
    exact hf.ownedBy_iff ha
  have hsame : ∀ senderId agentId, h.graph.graph.SameOwner now senderId agentId →
      OfCurrentOwner h.tables senderId agentId := by
    rintro senderId agentId ⟨owner, hagent, hsender⟩
    refine ⟨owner, (howned _ _).mp hagent, ?_⟩
    rcases hsender with rfl | ⟨-, hsender⟩
    · exact .inl rfl
    · exact .inr ((howned _ _).mp hsender)
  refine ⟨howned, fun a ha hactive userId hbound => ?_, fun a ha hfree human hown => ?_, ?_, ?_⟩
  · obtain ⟨-, u, hu, rfl⟩ := hsound.consistent.claimed a ha userId hbound
    exact ⟨u, hu, rfl, (howned _ _).mpr ⟨a, ha, rfl, hactive, u, hu, hbound, rfl⟩⟩
  · obtain ⟨b, hb, hid, -, u, -, hbound, -⟩ := (howned _ _).mp hown
    rw [Keyed.eq_of_key hb ha hid, hfree] at hbound
    cases hbound
  · intro db senderId agent contactRequest hreason
    exact hsame _ _ (sameOwner_of_decideDirect hmirrors.soleOwners db hreason)
  · intro db agentId senderIds senderId decision hdecision hreason
    exact hsame _ _ (sameOwner_of_decideExecutionMany hmirrors.soleOwners db hdecision hreason)

def joins (userId : UserId) : Operation :=
  .registerPersonalAgent userId "ag_x"
    { personal := { spaceId := 10 + userId, membershipId := 20 + userId }, personalMembershipId := 30 + userId
      membershipId := 40 + userId }

def claimedByFirst : List Action :=
  [.call 1 (.signUp 1 "1"), .call 1 (.signUp 2 "2"), .call 1 (.registerAgent "x" "clm_1"),
    .call 2 (.claimAgent 1 "ag_x" "")]

def claimedBySecond : List Action :=
  [.call 4 (.unbindAgentFromUser "ag_x" 1 {} "clm_2"), .call 5 (.claimAgent 2 "ag_x" "")]

def movedUnowned : List Action := claimedByFirst ++ claimedBySecond ++ [.call 6 (joins 2)]

def movedOwned : List Action := claimedByFirst ++ [.call 3 (joins 1)] ++ claimedBySecond

/-- Unbound before it joins a space, the agent passes from the first user to the second. -/
theorem owners_follow_bindings_moved : ∃ h, hub.run (Hub.start 0) movedUnowned = some h ∧
    h.graph.graph.OwnedBy 7 "ag_x" "hu_2" ∧ ¬ h.graph.graph.OwnedBy 7 "ag_x" "hu_1" := by
  have hmeets : hub.Meets UnbindsUnowned (Hub.start 0) movedUnowned := by decide +kernel
  have howner : (hub.run (Hub.start 0) movedUnowned).any (fun h => CurrentOwner h.tables "ag_x" "hu_2" ∧
      ¬ CurrentOwner h.tables "ag_x" "hu_1") = true := by decide +kernel
  obtain ⟨h, hrun, hcurrent⟩ := Option.any_eq_true _ _ |>.mp howner
  obtain ⟨howned, -⟩ := @owners_follow_bindings 0 7 _ h hmeets hrun
  rw [decide_eq_true_eq] at hcurrent
  exact ⟨h, hrun, (howned _ _).mpr hcurrent.1, fun hformer => hcurrent.2 ((howned _ _).mp hformer)⟩

/-- Unbound after it has joined one, it stays with the first user: the graph gives the former owner everything, and the user it is bound to nothing. -/
theorem former_owner_keeps_agent : ∃ h, hub.run (Hub.start 0) movedOwned = some h ∧
    (∃ a ∈ h.tables.agents, a.agentId = "ag_x" ∧ a.status = .active ∧ a.userId = some 2) ∧
    h.graph.graph.OwnedBy 7 "ag_x" "hu_1" ∧ ¬ h.graph.graph.OwnedBy 7 "ag_x" "hu_2" ∧
    (decideDirect h.graph.graph.inOrder "hu_1" { agentId := "ag_x" } false 7).reason = .ownership ∧
    (decideDirect h.graph.graph.inOrder "hu_2" { agentId := "ag_x" } false 7).allowed = false := by
  have hrun : (hub.run (Hub.start 0) movedOwned).any (fun h =>
      (∃ a ∈ h.tables.agents, a.agentId = "ag_x" ∧ a.status = .active ∧ a.userId = some 2) ∧
      h.graph.graph.OwnedBy 7 "ag_x" "hu_1" ∧ ¬ h.graph.graph.OwnedBy 7 "ag_x" "hu_2" ∧
      (decideDirect h.graph.graph.inOrder "hu_1" { agentId := "ag_x" } false 7).reason = .ownership ∧
      (decideDirect h.graph.graph.inOrder "hu_2" { agentId := "ag_x" } false 7).allowed = false) = true := by
    decide +kernel
  obtain ⟨h, hrun, hkept⟩ := Option.any_eq_true _ _ |>.mp hrun
  rw [decide_eq_true_eq] at hkept
  exact ⟨h, hrun, hkept⟩

end BotCord.Spaces
