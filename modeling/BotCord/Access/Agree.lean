import BotCord.Access.Decide
import Mathlib.Data.Finset.Insert

/-!
# Batch and single decisions agree

Both functions are compared with the graph: who has the same owner as the agent, and which grants it backs. The batch asks about many senders with other selects and other loops, and finds the same.
-/

namespace BotCord.Access

variable {graph : Graph} {now : Instant}

/-- The sender owns the agent, or is another agent with the same owner. -/
def Graph.SameOwner (graph : Graph) (now : Instant) (senderId agentId : PrincipalId) : Prop :=
  ∃ owner, graph.OwnedBy now agentId owner ∧
    (owner = senderId ∨ senderId.startsWith "ag_" ∧ graph.OwnedBy now senderId owner)

/-- A live grant of the sender on the agent that the graph backs. -/
def Graph.Grants (graph : Graph) (now : Instant) (senderId agentId : PrincipalId) (g : AccessEdge) : Prop :=
  g ∈ graph.edges ∧ graph.Live now g ∧ graph.Backed now g ∧ g.fromId = senderId ∧ g.toId = agentId

theorem ownerOf_eq_some_iff (hsole : graph.SoleOwners now) (db : Session graph) {agentId : PrincipalId}
    {e : AccessEdge} : ownerOf db agentId now = some e ↔
      e ∈ graph.edges ∧ graph.Live now e ∧ e.kind = .ownership ∧ e.toId = agentId := by
  have hmem : ∀ x ∈ liveEdges db (fun e => e.kind = .ownership && e.toId = agentId) now,
      x ∈ graph.edges ∧ graph.Live now x ∧ x.kind = .ownership ∧ x.toId = agentId := fun x hx => by
    simpa using (mem_liveEdges db).mp hx
  have hone : Select.Sole (fun _ => True) (liveEdges db (fun e => e.kind = .ownership && e.toId = agentId) now) :=
    (hsole.sole agentId).subset (fun x hx => (hmem x hx).1) fun x hx _ => (hmem x hx).2
  rw [ownerOf, Select.head?_eq_some_iff_of_sole hone, mem_liveEdges, Bool.and_eq_true, decide_eq_true_eq,
    decide_eq_true_eq]

theorem ownerOf_fromId (hsole : graph.SoleOwners now) (db : Session graph) (agentId : PrincipalId)
    {owner : PrincipalId} :
    (ownerOf db agentId now).map (·.fromId) = some owner ↔ graph.OwnedBy now agentId owner := by
  simp only [Option.map_eq_some_iff, ownerOf_eq_some_iff hsole db, Graph.OwnedBy, and_assoc]

variable {senderIds : Finset PrincipalId} {sid : PrincipalId}

theorem senderOwners_eq_ownerOf (hsole : graph.SoleOwners now) (db : Session graph)
    (hsid : sid ∈ senderIds) (hagent : sid.startsWith "ag_") :
    senderOwners db senderIds now sid = ownerOf db sid now := by
  apply Option.ext
  intro e
  rw [ownerOf_eq_some_iff hsole db]
  exact last_owned_eq_some_iff hsole db _ sid (fun x hx => of_decide_eq_true (Bool.and_eq_true _ _ ▸ hx).1)
    fun x hown hto => by simp only [hown, hto, Finset.mem_filter, hsid, hagent, decide_true, Bool.and_true, and_self]

theorem senderOwners_eq_none (db : Session graph)
    (hagent : ¬ sid.startsWith "ag_") : senderOwners db senderIds now sid = none := by
  rw [senderOwners, List.find?_eq_none]
  intro e he
  obtain ⟨-, -, hc⟩ := (mem_liveEdges db).mp (List.mem_reverse.mp he)
  rw [Bool.and_eq_true, decide_eq_true_eq, decide_eq_true_eq, Finset.mem_filter] at hc
  intro hto
  exact hagent (of_decide_eq_true hto ▸ hc.2.2)

theorem mem_grantsOf (hsole : graph.SoleOwners now) (db : Session graph) {senderId agentId : PrincipalId}
    {g : AccessEdge} : g ∈ grantsOf db senderId agentId now ↔ graph.Grants now senderId agentId g := by
  rw [grantsOf, mem_validGrants hsole, mem_liveEdges]
  simp only [Bool.and_eq_true, decide_eq_true_eq, Graph.Grants]
  constructor
  · rintro ⟨⟨hg, hlive, ⟨-, hfrom⟩, hto⟩, hbacked⟩
    exact ⟨hg, hlive, hbacked, hfrom, hto⟩
  · rintro ⟨hg, hlive, hbacked, hfrom, hto⟩
    exact ⟨⟨hg, hlive, ⟨hbacked.1, hfrom⟩, hto⟩, hbacked⟩

theorem bestGrants_eq (hsole : graph.SoleOwners now) (db : Session graph) (agentId : PrincipalId)
    (hsid : sid ∈ senderIds) :
    ∃ rows : List AccessEdge, bestGrants db agentId senderIds now sid = rows.argmax rank ∧
      ∀ g, g ∈ rows ↔ sid.startsWith "hu_" ∧ graph.Grants now sid agentId g := by
  refine ⟨_, Select.foldl_keepBest _ _ sid, fun g => ?_⟩
  rw [List.mem_filter, mem_validGrants hsole, mem_liveEdges]
  simp only [Bool.and_eq_true, decide_eq_true_eq, Finset.mem_filter, Graph.Grants]
  constructor
  · rintro ⟨⟨⟨hg, hlive, ⟨-, hto⟩, -, hhuman⟩, hbacked⟩, rfl⟩
    exact ⟨hhuman, hg, hlive, hbacked, rfl, hto⟩
  · rintro ⟨hhuman, hg, hlive, hbacked, rfl, hto⟩
    exact ⟨⟨⟨hg, hlive, ⟨hbacked.1, hto⟩, hsid, hhuman⟩, hbacked⟩, rfl⟩

theorem sameOwnerPath_isSome_iff (hsole : graph.SoleOwners now) (db : Session graph)
    (senderId agentId : PrincipalId) :
    (sameOwnerPath db senderId agentId now).isSome ↔ graph.SameOwner now senderId agentId := by
  simp only [Graph.SameOwner, ← ownerOf_fromId hsole db]
  unfold sameOwnerPath
  cases hown : ownerOf db agentId now with
  | none => simp
  | some own =>
    by_cases hself : own.fromId = senderId
    · simp [hself]
    · by_cases hagent : senderId.startsWith "ag_"
      · cases hsender : ownerOf db senderId now with
        | none => simp [hself]
        | some senderOwn =>
          by_cases hsame : senderOwn.fromId = own.fromId
          · simp [hself, hagent, hsame]
          · simp [hself, hagent, hsame]
      · simp [hself, hagent]

theorem decideByRelation_reason (db : Session graph) (senderId : PrincipalId) (agent : Agent) (now : Instant) :
    (decideByRelation db senderId agent now).reason ≠ .ownership ∧
      (decideByRelation db senderId agent now).reason ≠ .grant := by
  unfold decideByRelation
  cases (connections db senderId agent.agentId now).head? with
  | some conn => simp
  | none =>
    cases (offers db agent.agentId now).head?.filter (·.terms.direct) with
    | some offer => simp
    | none => cases sharedConversation db senderId agent.agentId <;> simp

/-- A sender the single decision comes to ownership and grants for. -/
structure Admitted (db : Session graph) (senderId : PrincipalId) (agent : Agent) (now : Instant) : Prop where
  unblocked : blocked db agent.agentId senderId now = none
  class_allowed : senderClassAllowed agent senderId = none

theorem decideDirect_cases (hsole : graph.SoleOwners now) (db : Session graph) {senderId : PrincipalId}
    {agent : Agent} (hadmitted : Admitted db senderId agent now) :
    (graph.SameOwner now senderId agent.agentId ∧ (decideDirect db senderId agent false now).reason = .ownership) ∨
    (¬ graph.SameOwner now senderId agent.agentId ∧
      ∃ best ∈ (grantsOf db senderId agent.agentId now).argmax rank,
        decideDirect db senderId agent false now
          = { allowed := true, reason := .grant, capability := best.role, path := [hop best] }) ∨
    (¬ graph.SameOwner now senderId agent.agentId ∧ grantsOf db senderId agent.agentId now = [] ∧
      decideDirect db senderId agent false now = decideByRelation db senderId agent now) := by
  have hpath := sameOwnerPath_isSome_iff hsole db senderId agent.agentId
  unfold decideDirect
  simp only [hadmitted.unblocked, hadmitted.class_allowed, Bool.false_eq_true, if_false]
  cases hsame : sameOwnerPath db senderId agent.agentId now with
  | some path => exact Or.inl ⟨hpath.mp (by rw [hsame]; rfl), rfl⟩
  | none =>
    have hother : ¬ graph.SameOwner now senderId agent.agentId := fun h => by simpa [hsame] using hpath.mpr h
    refine Or.inr ?_
    cases hbest : (grantsOf db senderId agent.agentId now).argmax rank with
    | some best => exact Or.inl ⟨hother, best, rfl, rfl⟩
    | none => exact Or.inr ⟨hother, List.argmax_eq_none.mp hbest, rfl⟩

theorem sameOwner_iff (hsole : graph.SoleOwners now) (db : Session graph)
    (agentId : PrincipalId) (hsid : sid ∈ senderIds) :
    graph.SameOwner now sid agentId ↔ ∃ own, ownerOf db agentId now = some own ∧
      (own.fromId = sid ∨ (senderOwners db senderIds now sid).map (·.fromId) = some own.fromId) := by
  have hsender : ∀ owner, (senderOwners db senderIds now sid).map (·.fromId) = some owner ↔
      sid.startsWith "ag_" ∧ graph.OwnedBy now sid owner := by
    intro owner
    by_cases hagent : sid.startsWith "ag_"
    · rw [senderOwners_eq_ownerOf hsole db hsid hagent, ownerOf_fromId hsole db]
      simp only [hagent, true_and]
    · simp only [senderOwners_eq_none db hagent, Option.map_none, reduceCtorEq, hagent, false_and]
  simp only [hsender, Graph.SameOwner, ← ownerOf_fromId hsole db agentId, Option.map_eq_some_iff]
  constructor
  · rintro ⟨owner, ⟨own, hown, rfl⟩, hpath⟩
    exact ⟨own, hown, hpath⟩
  · rintro ⟨own, hown, hpath⟩
    exact ⟨own.fromId, ⟨own, hown, rfl⟩, hpath⟩

theorem decideExecutionMany_cases (hsole : graph.SoleOwners now) (db : Session graph) (agentId : PrincipalId)
    (hsid : sid ∈ senderIds) :
    ∃ decision, decideExecutionMany db agentId senderIds now sid = some decision ∧
      ((graph.SameOwner now sid agentId ∧ decision.allowed = true ∧ decision.reason = .ownership ∧
          decision.capability = some "full") ∨
        (¬ graph.SameOwner now sid agentId ∧
          ∃ best ∈ bestGrants db agentId senderIds now sid,
            decision = { allowed := true, reason := .grant, capability := best.role, path := [hop best] }) ∨
        (¬ graph.SameOwner now sid agentId ∧ bestGrants db agentId senderIds now sid = none ∧
          decision = { allowed := false, reason := .default })) := by
  have hsame := sameOwner_iff hsole db agentId hsid
  unfold decideExecutionMany
  simp only [hsid, not_true_eq_false, if_false]
  -- Whatever is not ownership falls to the best grant.
  have hgrant : ¬ graph.SameOwner now sid agentId →
      (¬ graph.SameOwner now sid agentId ∧ ∃ best ∈ bestGrants db agentId senderIds now sid,
        decideByGrant (bestGrants db agentId senderIds now sid)
          = { allowed := true, reason := .grant, capability := best.role, path := [hop best] }) ∨
      (¬ graph.SameOwner now sid agentId ∧ bestGrants db agentId senderIds now sid = none ∧
        decideByGrant (bestGrants db agentId senderIds now sid) = { allowed := false, reason := .default }) := by
    intro hother
    cases bestGrants db agentId senderIds now sid with
    | some best => exact Or.inl ⟨hother, best, rfl, rfl⟩
    | none => exact Or.inr ⟨hother, rfl, rfl⟩
  cases hown : ownerOf db agentId now with
  | none =>
    refine ⟨_, rfl, Or.inr (hgrant ?_)⟩
    simp [hsame, hown]
  | some own =>
    by_cases hself : own.fromId = sid
    · refine ⟨_, by simp only [hself, if_true]; rfl, Or.inl ⟨hsame.mpr ⟨own, hown, Or.inl hself⟩, rfl, rfl, rfl⟩⟩
    · simp only [hself, if_false, Option.isSome_some, if_true]
      cases hsender : senderOwners db senderIds now sid with
      | none =>
        refine ⟨_, rfl, Or.inr (hgrant ?_)⟩
        simp [hsame, hown, hself, hsender]
      | some senderOwn =>
        by_cases hshared : senderOwn.fromId = own.fromId
        · refine ⟨_, by simp only [hshared, if_true]; rfl, Or.inl ⟨hsame.mpr ⟨own, hown, Or.inr ?_⟩, rfl, rfl, rfl⟩⟩
          rw [hsender, Option.map_some, hshared]
        · refine ⟨_, by simp only [hshared, if_false], Or.inr (hgrant ?_)⟩
          simp [hsame, hown, hself, hsender, hshared]

/-- The batch gives ownership exactly where the single decision of an admitted sender does, a human sender a grant exactly where the single decision does and with a role of the same rank, and denies all others. -/
theorem execution_many_agrees (hsole : graph.SoleOwners now) (many direct : Session graph) (agent : Agent)
    (senderIds : Finset PrincipalId) {sid : PrincipalId} (hsid : sid ∈ senderIds) :
    ∃ decision, decideExecutionMany many agent.agentId senderIds now sid = some decision ∧
      (Admitted direct sid agent now →
        ((decision.allowed = true ∧ decision.reason = .ownership ∧ decision.capability = some "full") ↔
          (decideDirect direct sid agent false now).reason = .ownership) ∧
        (sid.startsWith "hu_" →
          ((decision.allowed = true ∧ decision.reason = .grant) ↔
            (decideDirect direct sid agent false now).reason = .grant) ∧
          (decision.reason = .grant →
            capabilityRank decision.capability
              = capabilityRank (decideDirect direct sid agent false now).capability))) ∧
      (decision.reason = .ownership ∨ (sid.startsWith "hu_" ∧ decision.reason = .grant) ∨
        decision = { allowed := false, reason := .default }) := by
  obtain ⟨rows, hbest, hrows⟩ := bestGrants_eq hsole many agent.agentId hsid
  obtain ⟨decision, hdecision, hcases⟩ := decideExecutionMany_cases hsole many agent.agentId hsid
  refine ⟨decision, hdecision, fun hadmitted => ?_, ?_⟩
  · have hsamerows : sid.startsWith "hu_" →
        ∀ g, g ∈ rows ↔ g ∈ grantsOf direct sid agent.agentId now := fun hhuman g => by
      rw [hrows, mem_grantsOf hsole direct]
      simp only [hhuman, true_and]
    obtain ⟨hnotOwnership, hnotGrant⟩ := decideByRelation_reason direct sid agent now
    rcases decideDirect_cases hsole direct hadmitted with
      ⟨hsame, howned⟩ | ⟨hother, best, hmem, hdirect⟩ | ⟨hother, hnone, hdirect⟩
    · rcases hcases with ⟨-, hallowed, hreason, hfull⟩ | ⟨hother, -⟩ | ⟨hother, -⟩
      · simp [hallowed, hreason, hfull, howned]
      · exact absurd hsame hother
      · exact absurd hsame hother
    · rcases hcases with ⟨hsame, -⟩ | ⟨-, best', hmem', rfl⟩ | ⟨-, hmany, rfl⟩
      · exact absurd hsame hother
      · rw [hbest] at hmem'
        simp only [hdirect, reduceCtorEq, false_and, and_false, and_self, true_and, forall_const]
        intro hhuman
        exact Select.measure_argmax_eq (hsamerows hhuman) hmem' hmem
      · rw [hbest, List.argmax_eq_none] at hmany
        simp only [hdirect, reduceCtorEq, Bool.false_eq_true, false_and, true_and, false_iff, not_true_eq_false,
          IsEmpty.forall_iff, and_true]
        intro hhuman
        have hgrant := (hsamerows hhuman best).mpr (List.argmax_mem hmem)
        rw [hmany] at hgrant
        exact List.not_mem_nil hgrant
    · rcases hcases with ⟨hsame, -⟩ | ⟨-, best', hmem', rfl⟩ | ⟨-, -, rfl⟩
      · exact absurd hsame hother
      · rw [hbest] at hmem'
        have hhuman := ((hrows best').mp (List.argmax_mem hmem')).1
        have hgrant := (hsamerows hhuman best').mp (List.argmax_mem hmem')
        rw [hnone] at hgrant
        exact absurd hgrant List.not_mem_nil
      · simp [hdirect, hnotOwnership, hnotGrant]
  · rcases hcases with ⟨-, -, hreason, -⟩ | ⟨-, best, hmem, rfl⟩ | ⟨-, -, rfl⟩
    · exact Or.inl hreason
    · rw [hbest] at hmem
      exact Or.inr (Or.inl ⟨((hrows best).mp (List.argmax_mem hmem)).1, rfl⟩)
    · exact Or.inr (Or.inr rfl)

/-- An agent with an owner, a former owner, and two grants of one human with different roles. -/
def sharedAgent : Graph where
  edges := [
    { id := 1, kind := .ownership, fromId := "hu_a", toId := "ag_1", status := .revoked },
    { id := 2, kind := .ownership, fromId := "hu_o", toId := "ag_1" },
    { id := 3, kind := .grant, fromId := "hu_g", toId := "ag_1", role := some "consult", issuedBy := some "hu_o" },
    { id := 4, kind := .grant, fromId := "hu_g", toId := "ag_1", role := some "full", issuedBy := some "hu_o",
      scopeOrgId := "or_1", expiresAt := some 100 },
    { id := 5, kind := .grant, fromId := "hu_g", toId := "ag_1", role := some "collaborator", issuedBy := some "hu_o",
      scopeOrgId := "or_2" }]
  deps := [{ edgeId := 5, dependsOnEdgeId := 2, dependsOnVersion := 1 }]
  principals := [{ id := "hu_o" }, { id := "hu_g" }, { id := "ag_1" }, { id := "or_1" }, { id := "or_2" }]

theorem execution_many_agrees_shared :
    ∃ decision, decideExecutionMany sharedAgent.inOrder "ag_1" {"hu_g"} 200 "hu_g" = some decision ∧
      decision.reason = .grant ∧
      capabilityRank decision.capability
        = capabilityRank (decideDirect sharedAgent.backwards "hu_g" { agentId := "ag_1" } false 200).capability := by
  have hsole : sharedAgent.SoleOwners 200 := by decide +kernel
  have hasked : "hu_g" ∈ ({"hu_g"} : Finset PrincipalId) := by decide
  have hadmitted : Admitted sharedAgent.backwards "hu_g" { agentId := "ag_1" } 200 :=
    ⟨by decide +kernel, by decide +kernel⟩
  obtain ⟨decision, hdecision, hagree, -⟩ :=
    execution_many_agrees hsole sharedAgent.inOrder sharedAgent.backwards { agentId := "ag_1" } _ hasked
  obtain ⟨-, hhuman⟩ := hagree hadmitted
  obtain ⟨hgrant, hrank⟩ := hhuman (by decide +kernel)
  have hreason : decision.reason = .grant := (hgrant.mpr (by decide +kernel)).2
  exact ⟨decision, hdecision, hreason, hrank hreason⟩

end BotCord.Access
