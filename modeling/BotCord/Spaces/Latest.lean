import BotCord.Spaces.GrantAgreement
import Mathlib.Data.Prod.Lex

/-!
# The latest grant and the best one

A person can hold grants for one agent in several organizations. `latest_grant_for_pair` and what is built on it in `hub/services/agent_access.py` look at the most recent one, whatever became of it; `decide_execution_many` takes the greatest role among those that are valid. Both are asked here of the states that the calls can reach, with the time at which each grant was created.
-/

namespace BotCord.Spaces

open Access (AccessEdge Graph decideExecutionMany decideExecutionMany_cases bestGrants_eq capabilityRank rank mem_liveEdges
  mem_validGrants)
open Tables

/-- The hub with the column `created_at` of its grants, which the database fills in with the time of the transaction. -/
structure Dated where
  hub : Hub
  createdAt : GrantId → Instant := fun _ => 0

/-- A row that was not there before has been created now. -/
def Dated.next (s : Dated) (h : Hub) : Dated where
  hub := h
  createdAt id := if (s.hub.tables.grants.get? id).isNone then h.clock else s.createdAt id

def dated : System Dated Action where
  step s a := (hub.step s.hub a).map s.next

def Dated.Initial (s : Dated) : Prop := s.hub.Initial

theorem dated_run {s s' : Dated} {actions : List Action} (hrun : dated.run s actions = some s') :
    hub.run s.hub actions = some s'.hub := by
  induction actions generalizing s with
  | nil =>
    obtain rfl := Option.some.inj hrun
    rfl
  | cons a rest ih =>
    obtain ⟨next, hnext, hrest⟩ := System.run_cons_eq_some _ |>.mp hrun
    obtain ⟨h, hstep, rfl⟩ := Option.map_eq_some_iff.mp hnext
    exact (System.run_cons_eq_some _).mpr ⟨h, hstep, ih hrest⟩

theorem Dated.reachable_hub {s : Dated} (hreach : dated.Reachable Dated.Initial s) :
    BotCord.Spaces.hub.Reachable Hub.Initial s.hub := by
  obtain ⟨start, actions, hstart, hrun⟩ := hreach
  exact ⟨start.hub, actions, hstart, dated_run hrun⟩

namespace Dated

variable (s : Dated)

/-- A grant on the agent to the person, in whatever organization. -/
def ofPair (agentId : AgentId) (userId : UserId) : List AgentAccessGrant :=
  s.hub.tables.grants.rows.filter fun g => g.agentId = agentId ∧ g.granteeUserId = userId

-- Of the instances for the integers, one that can be run.
local instance : Preorder Instant := Int.instLinearOrder.toPreorder

/-- `_LATEST_FIRST`: by creation, the live one before others of that time, then by id. -/
def recency (g : AgentAccessGrant) : Instant ×ₗ ℕ ×ₗ GrantId :=
  toLex (s.createdAt g.id, toLex (if g.revokedAt = none then 1 else 0, g.id))

def latestGrantForPair (agentId : AgentId) (userId : UserId) : Option AgentAccessGrant :=
  (s.ofPair agentId userId).argmax s.recency

variable (p : Projection) (db : Access.Session p.graph)

def activeGrantForPair (agentId : AgentId) (userId : UserId) (now : Instant) : Option AgentAccessGrant :=
  (s.latestGrantForPair agentId userId).filter fun g => grantIsValid p db g.id now

/-- `active_grants_for_grantee`: many agents in one query. -/
def activeGrantsForGrantee (agentIds : List AgentId) (userId : UserId) (now : Instant) (agentId : AgentId) :
    Option AgentAccessGrant :=
  let latest := agentIds.filterMap fun id => s.latestGrantForPair id userId
  let valid := validGrantIds p db latest now
  if agentId ∈ agentIds then (s.latestGrantForPair agentId userId).filter fun g => g.id ∈ valid else none

end Dated

/-- The role of the grant that `decide_execution_many` reports for a sender, if it reports one. -/
def executionRole {graph : Graph} (db : Access.Session graph) (agentId : AgentId) (senders : Finset PrincipalId)
    (now : Instant) (sender : PrincipalId) : Option (Option String) :=
  ((decideExecutionMany db agentId senders now sender).filter (·.reason = .grant)).map (·.capability)

/-- Every valid grant of the pair gives way to the latest one: that one is valid too, and its role is no lower. -/
def LatestRules (s : Dated) (agentId : AgentId) (userId : UserId) (now : Instant) : Prop :=
  ∀ g ∈ s.ofPair agentId userId, Alive s.hub.tables g now → ∃ latest ∈ s.latestGrantForPair agentId userId,
    Alive s.hub.tables latest now ∧ (g.role = .collaborator → latest.role = .collaborator)

instance (t : Tables) (g : AgentAccessGrant) (now : Instant) : Decidable (Alive t g now) :=
  decidable_of_iff
    ((g.revokedAt = none ∧ g.expiresAt.all (now < ·) = true) ∧ (∃ s ∈ t.spaces, s.id = g.spaceId ∧ s.status = .active) ∧
      (∃ m ∈ t.userMemberships, m.id = g.granteeMembershipId ∧ m.status = .active ∧ m.version = g.granteeMembershipVersion) ∧
      (∃ u ∈ t.users, u.id = g.granteeUserId ∧ u.Enabled) ∧
      (∃ m ∈ t.agentMemberships, m.id = g.agentMembershipId ∧ m.status = .active ∧ m.version = g.agentMembershipVersion) ∧
      ∃ a ∈ t.agents, a.agentId = g.agentId ∧ a.status = .active)
    ⟨fun ⟨⟨hr, he⟩, hs, hm, hu, ham, ha⟩ => ⟨hr, he, hs, hm, hu, ham, ha⟩,
      fun ⟨hr, he, hs, hm, hu, ham, ha⟩ => ⟨⟨hr, he⟩, hs, hm, hu, ham, ha⟩⟩

instance (s : Dated) (agentId : AgentId) (userId : UserId) (now : Instant) : Decidable (LatestRules s agentId userId now) :=
  inferInstanceAs (Decidable (∀ g ∈ s.ofPair agentId userId, _))

/-- Humans have the ids that tell them from agents, and nobody has issued a grant to itself. -/
structure Named (t : Tables) : Prop where
  human : ∀ u ∈ t.users, u.humanId.startsWith "hu_" = true
  other : ∀ g ∈ t.grants, g.granteeUserId ≠ g.createdByUserId

section Named

variable {now : Instant} {t t' : Tables}

theorem Named.revokeGrants (h : Named t) {q : AgentAccessGrant → Prop} [DecidablePred q] : Named (t.revokeGrants q now) where
  human := h.human
  other g hg := by
    obtain ⟨g', hg', rfl⟩ := Table.mem_update.mp hg
    split
    · exact h.other g' hg'
    · exact h.other g' hg'

theorem Named.change (h : Named t) (hchange : Change now t t') : Named t' := by
  cases hchange with
  | signUp hadds _ _ hhuman =>
    refine { h with human := fun u hu => ?_ }
    rcases hadds.mem_iff.mp hu with hu | rfl
    · exact h.human u hu
    · exact hhuman
  | @users q _ f hf hhuman =>
    refine { h with human := fun u hu => ?_ }
    obtain ⟨v, hv, rfl⟩ := Table.mem_update.mp hu
    split
    · rw [hhuman]
      exact h.human v hv
    · exact h.human v hv
  | @grant g am um grants _ _ _ _ _ _ _ _ hadds hother =>
    refine { human := h.human, other := fun x hx => ?_ }
    rcases hadds.mem_iff.mp hx with hx | rfl
    · exact (h.revokeGrants (q := Replaces g)).other x hx
    · exact hother
  | revoke => exact h.revokeGrants
  | _ => exact { human := h.human, other := h.other }

theorem Named.changes (h : Named t) (hchanges : Changes now t t') : Named t' := by
  induction hchanges with
  | refl => exact h
  | tail _ hstep ih => exact ih.change hstep

theorem Named.reachable {h : Hub} (hreach : hub.Reachable Hub.Initial h) : Named h.tables := by
  refine hreach.invariant hub (P := fun h => Named h.tables) ?_ fun s a s' hnamed hstep => ?_
  · rintro _ ⟨clock, rfl⟩
    exact ⟨fun u hu => absurd hu Keyed.not_mem_empty, fun g hg => absurd hg Keyed.not_mem_empty⟩
  · cases stepped hstep with
    | committed hclock hcall =>
      rcases atomically_perform hcall with hchanges | ⟨agentId, userId, checks, claimCode, -, -, rfl⟩
      · exact hnamed.changes hchanges
      · exact { human := hnamed.human, other := hnamed.other }
    | failed => exact hnamed
    | projected => exact hnamed
    | related => exact hnamed

theorem Named.not_agent (h : Named t) {u : User} (hu : u ∈ t.users) : ¬ u.humanId.startsWith "ag_" = true := by
  intro hagent
  have hhuman := h.human u hu
  rw [String.startsWith_string_iff] at hagent hhuman
  obtain ⟨rest, hrest⟩ := hagent
  obtain ⟨rest', hrest'⟩ := hhuman
  rw [← hrest'] at hrest
  simp at hrest

end Named

section Edges

variable {t : Tables} {p : Projection} {time now : Instant} {g : AgentAccessGrant}

/-- The edges by which the graph grants a person access to an agent are those of the grants that are alive. -/
theorem Mirrors.grants_iff (h : Mirrors t p time) (ht : Consistent t) (hle : time ≤ now) {u : User} (hu : u ∈ t.users)
    {agentId : AgentId} {e : AccessEdge} : p.graph.Grants now u.humanId agentId e ↔
      ∃ g ∈ t.grants, (g.agentId = agentId ∧ g.granteeUserId = u.id) ∧ Alive t g now ∧
        ∃ row ∈ p.rows, row.source = .grant g.id ∧ row.toEdge = e := by
  constructor
  · rintro ⟨he, hlive, hbacked, hfrom, hto⟩
    obtain ⟨row, hrow, rfl⟩ := mem_graph.mp he
    have hkind : row.fields.kind = .grant := hbacked.1
    obtain ⟨want, hwant, hsettled⟩ := h.settled hrow (by rw [hkind]; decide) (.inr hlive.1)
    rw [hsettled.fields] at hkind
    rcases mem_desiredEdges.mp hwant with ⟨a, -, -, hedge⟩ | ⟨m, -, hedge⟩ | ⟨m, -, hedge⟩ | ⟨g, hg, hedge⟩
    · obtain ⟨_, -, rfl⟩ := Option.map_eq_some_iff.mp hedge
      cases hkind
    · obtain ⟨_, -, _, -, -, -, rfl⟩ := userMembershipEdge_eq_some hedge
      cases hkind
    · obtain ⟨_, -, -, rfl⟩ := agentMembershipEdge_eq_some hedge
      cases hkind
    · have hsource : row.source = .grant g.id := by
        obtain ⟨_, -, _, -, _, -, -, -, -, rfl⟩ := (grantEdge_eq_some ht hg).mp hedge
        exact hsettled.source
      have hvalid : grantIsValid p p.graph.inOrder g.id now = true := by
        rw [grantIsValid, Keyed.get?_eq_some_iff.mpr ⟨hrow, hsource⟩, Option.any_some, grantEdgeValid_iff h.soleOwners _ he]
        exact ⟨hlive, hbacked⟩
      obtain ⟨_, -, v, hv, _, -, -, hvid, -, rfl⟩ := (grantEdge_eq_some ht hg).mp hedge
      have hfields := hsettled.fields
      have hhuman : v.humanId = u.humanId := (congrArg Fields.fromId hfields).symm.trans hfrom
      obtain rfl := ht.human_unique v hv u hu hhuman
      have hagent : g.agentId = agentId := (congrArg Fields.toId hfields).symm.trans hto
      exact ⟨g, hg, ⟨hagent, hvid.symm⟩, (h.grantIsValid_iff ht hle _ hg).mp hvalid, row, hrow, hsource, rfl⟩
  · rintro ⟨g, hg, ⟨hagent, hgrantee⟩, halive, row, hrow, hsource, rfl⟩
    have hvalid := (h.grantIsValid_iff ht hle p.graph.inOrder hg).mpr halive
    have he : row.toEdge ∈ p.graph.edges := mem_graph.mpr ⟨row, hrow, rfl⟩
    rw [grantIsValid, Keyed.get?_eq_some_iff.mpr ⟨hrow, hsource⟩, Option.any_some, grantEdgeValid_iff h.soleOwners _ he]
      at hvalid
    obtain ⟨r⟩ := exists_referred ht hg
    obtain ⟨row', hrow', hsettled⟩ := h.edge _ (r.edge_mem ht hg)
    obtain rfl := Keyed.eq_of_key hrow hrow' (hsource.trans hsettled.source.symm)
    have huser : r.granteeUser = u := Keyed.eq_of_key r.granteeUser_mem.1 hu (r.granteeUser_mem.2.trans hgrantee)
    refine ⟨he, hvalid.1, hvalid.2, ?_, (congrArg Fields.toId hsettled.fields).trans hagent⟩
    rw [← huser]
    exact congrArg Fields.fromId hsettled.fields

theorem Mirrors.role_eq (h : Mirrors t p time) (ht : Consistent t) (hg : g ∈ t.grants)
    {row : EdgeRow} (hrow : row ∈ p.rows) (hsource : row.source = .grant g.id) : row.toEdge.role = some g.role.text := by
  obtain ⟨r⟩ := exists_referred ht hg
  obtain ⟨row', hrow', hsettled⟩ := h.edge _ (r.edge_mem ht hg)
  obtain rfl := Keyed.eq_of_key hrow hrow' (hsource.trans hsettled.source.symm)
  exact congrArg Fields.role hsettled.fields

theorem Mirrors.not_sameOwner (h : Mirrors t p time) (ht : Consistent t) (hnamed : Named t) {u : User}
    (hu : u ∈ t.users) (hg : g ∈ t.grants) (hgrantee : g.granteeUserId = u.id) :
    ¬ p.graph.SameOwner now u.humanId g.agentId := by
  rintro ⟨owner, hown, hsender⟩
  have howner : owner = u.humanId := by
    rcases hsender with rfl | ⟨hagent, -⟩
    · rfl
    · exact absurd hagent (hnamed.not_agent hu)
  subst howner
  obtain ⟨a, ha, hid, -, v, hv, howned, hhuman⟩ := (h.ownedBy_iff ht).mp hown
  obtain rfl := ht.human_unique v hv u hu hhuman
  obtain ⟨o, ho, hoagent, hoowner⟩ := (ht.grant g hg).owner
  rcases howned with ⟨o', ho', hoagent', hoowner'⟩ | ⟨hnone, -⟩
  · obtain rfl := Keyed.eq_of_key ho ho' (hoagent.trans (hid.symm.trans hoagent'.symm))
    exact hnamed.other g hg (hgrantee.trans (Owner.user.inj (hoowner'.symm.trans hoowner)))
  · exact hnone o ho (hoagent.trans hid.symm)

end Edges

theorem capabilityRank_text (role : GrantRole) : capabilityRank (some role.text) = if role = .collaborator then 2 else 0 := by
  cases role <;> rfl

section Answers

variable {s : Dated} {time now : Instant} {u : User} {agentId : AgentId} {p : Projection} {userId : UserId}
  {g : AgentAccessGrant}

theorem mem_ofPair : g ∈ s.ofPair agentId userId ↔
    g ∈ s.hub.tables.grants ∧ g.agentId = agentId ∧ g.granteeUserId = userId := by
  rw [Dated.ofPair, List.mem_filter, decide_eq_true_eq, Keyed.mem_def]

/-- The batch reports the greatest role among the grants of the pair that are alive. -/
theorem executionRole_cases (h : Mirrors s.hub.tables p time) (ht : Consistent s.hub.tables) (hnamed : Named s.hub.tables)
    (hle : time ≤ now) (hu : u ∈ s.hub.tables.users) (db : Access.Session p.graph) {senders : Finset PrincipalId}
    (hasked : u.humanId ∈ senders) :
    ((∀ g ∈ s.ofPair agentId u.id, ¬ Alive s.hub.tables g now) ∧ executionRole db agentId senders now u.humanId = none) ∨
      ∃ best ∈ s.ofPair agentId u.id, Alive s.hub.tables best now ∧
        (∀ g ∈ s.ofPair agentId u.id, Alive s.hub.tables g now → g.role = .collaborator → best.role = .collaborator) ∧
        executionRole db agentId senders now u.humanId = some (some best.role.text) := by
  obtain ⟨rows, hbest, hrows⟩ := bestGrants_eq h.soleOwners db agentId hasked
  have hmem : ∀ e, e ∈ rows ↔ ∃ g ∈ s.hub.tables.grants, (g.agentId = agentId ∧ g.granteeUserId = u.id) ∧
      Alive s.hub.tables g now ∧ ∃ row ∈ p.rows, row.source = .grant g.id ∧ row.toEdge = e := by
    intro e
    rw [hrows, h.grants_iff ht hle hu]
    exact and_iff_right (hnamed.human u hu)
  have hrow : ∀ g ∈ s.ofPair agentId u.id, Alive s.hub.tables g now → ∃ e ∈ rows, e.role = some g.role.text := by
    intro g hg halive
    obtain ⟨hg, hagent, hgrantee⟩ := mem_ofPair.mp hg
    obtain ⟨r⟩ := exists_referred ht hg
    obtain ⟨row, hrow, hsettled⟩ := h.edge _ (r.edge_mem ht hg)
    exact ⟨row.toEdge, (hmem _).mpr ⟨g, hg, ⟨hagent, hgrantee⟩, halive, row, hrow, hsettled.source, rfl⟩,
      h.role_eq ht hg hrow hsettled.source⟩
  obtain ⟨decision, hdecision, hcases⟩ := decideExecutionMany_cases h.soleOwners db agentId hasked
  rw [executionRole, hdecision]
  cases hmax : rows.argmax rank with
  | none =>
    rw [List.argmax_eq_none] at hmax
    have hnone : ∀ g ∈ s.ofPair agentId u.id, ¬ Alive s.hub.tables g now := by
      intro g hg halive
      obtain ⟨e, he, -⟩ := hrow g hg halive
      rw [hmax] at he
      exact absurd he List.not_mem_nil
    refine .inl ⟨hnone, ?_⟩
    rcases hcases with ⟨-, -, hreason, -⟩ | ⟨-, best, hin, -⟩ | ⟨-, -, rfl⟩
    · simp [hreason]
    · rw [hbest, hmax] at hin
      cases hin
    · simp
  | some best =>
    obtain ⟨g, hg, hpair, halive, row, hrow', hsource, rfl⟩ := (hmem best).mp (List.argmax_mem hmax)
    have hrole := h.role_eq ht hg hrow' hsource
    refine .inr ⟨g, mem_ofPair.mpr ⟨hg, hpair⟩, halive, fun x hx hxalive hcollaborator => ?_, ?_⟩
    · obtain ⟨e, he, herole⟩ := hrow x hx hxalive
      have hle := List.le_of_mem_argmax he hmax
      rw [rank, rank, herole, hrole, capabilityRank_text, capabilityRank_text, if_pos hcollaborator] at hle
      by_contra hconsultant
      rw [if_neg hconsultant] at hle
      omega
    · have hother : ¬ p.graph.SameOwner now u.humanId agentId :=
        hpair.1 ▸ h.not_sameOwner ht hnamed hu hg hpair.2
      rcases hcases with ⟨hsame, -⟩ | ⟨-, best', hin, rfl⟩ | ⟨-, hnone, -⟩
      · exact absurd hsame hother
      · rw [hbest, hmax] at hin
        obtain rfl := Option.some.inj hin
        simp [hrole]
      · rw [hbest, hmax] at hnone
        cases hnone

theorem mem_ofPair_of_latest (hg : g ∈ s.latestGrantForPair agentId userId) :
    g ∈ s.ofPair agentId userId := List.argmax_mem hg

theorem activeGrantForPair_eq_some (h : Mirrors s.hub.tables p time) (ht : Consistent s.hub.tables) (hle : time ≤ now)
    (db : Access.Session p.graph) :
    s.activeGrantForPair p db agentId userId now = some g ↔
      s.latestGrantForPair agentId userId = some g ∧ Alive s.hub.tables g now := by
  rw [Dated.activeGrantForPair, Option.filter_eq_some_iff]
  refine and_congr_right fun hlatest => ?_
  exact h.grantIsValid_iff ht hle db (mem_ofPair.mp (mem_ofPair_of_latest hlatest)).1

/-- Asked for many agents at once, the grant that counts is the one that counts for each of them. -/
theorem activeGrantsForGrantee_eq (h : Mirrors s.hub.tables p time) (many one : Access.Session p.graph)
    {agentIds : List AgentId} (hasked : agentId ∈ agentIds) :
    s.activeGrantsForGrantee p many agentIds userId now agentId = s.activeGrantForPair p one agentId userId now := by
  rw [Dated.activeGrantsForGrantee, if_pos hasked, Dated.activeGrantForPair]
  apply Option.ext
  intro g
  rw [Option.filter_eq_some_iff, Option.filter_eq_some_iff]
  refine and_congr_right fun hlatest => ?_
  rw [decide_eq_true_eq, h.mem_validGrantIds many one]
  refine and_iff_right (List.mem_map_of_mem (List.mem_filterMap.mpr ⟨agentId, hasked, hlatest⟩))

/-- The batch reports the role of the active grant, and a grant exactly if there is one, if and only if the latest grant of the pair rules. -/
theorem executionRole_eq_iff (h : Mirrors s.hub.tables p time) (ht : Consistent s.hub.tables) (hnamed : Named s.hub.tables)
    (hle : time ≤ now) (hu : u ∈ s.hub.tables.users) (many one : Access.Session p.graph) {senders : Finset PrincipalId}
    (hasked : u.humanId ∈ senders) : executionRole many agentId senders now u.humanId
        = (s.activeGrantForPair p one agentId u.id now).map (fun g => some g.role.text) ↔ LatestRules s agentId u.id now := by
  have hactive := fun g => @activeGrantForPair_eq_some s time now agentId p u.id g h ht hle one
  rcases executionRole_cases h ht hnamed hle hu many hasked with
    ⟨hnone, hrole⟩ | ⟨best, hbest, halive, hgreatest, hrole⟩
  · have hempty : s.activeGrantForPair p one agentId u.id now = none := by
      rw [Option.eq_none_iff_forall_ne_some]
      intro g hg
      obtain ⟨hlatest, hg⟩ := (hactive g).mp hg
      exact hnone g (mem_ofPair_of_latest hlatest) hg
    rw [hrole, hempty]
    exact ⟨fun _ g hg hlive => absurd hlive (hnone g hg), fun _ => rfl⟩
  · rw [hrole]
    constructor
    · intro heq g hg hgalive
      obtain ⟨latest, hlatest, hsame⟩ := Option.map_eq_some_iff.mp heq.symm
      obtain ⟨hlatest, hlive⟩ := (hactive latest).mp hlatest
      refine ⟨latest, hlatest, hlive, fun hcollaborator => ?_⟩
      have hbestrole := hgreatest g hg hgalive hcollaborator
      rw [hbestrole, Option.some.injEq] at hsame
      revert hsame
      cases latest.role <;> decide
    · intro hrules
      obtain ⟨latest, hlatest, hlive, hcollaborator⟩ := hrules best hbest halive
      have hsame : latest.role = best.role := by
        cases hrolebest : best.role with
        | collaborator => exact hcollaborator hrolebest
        | consultant =>
          cases hrolelatest : latest.role with
          | consultant => rfl
          | collaborator =>
            have hbestrole := hgreatest latest (mem_ofPair_of_latest hlatest) hlive hrolelatest
            rw [hrolebest] at hbestrole
            cases hbestrole
      rw [(hactive latest).mpr ⟨hlatest, hlive⟩, Option.map_some, hsame]

end Answers

end BotCord.Spaces
