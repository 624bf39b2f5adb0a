import BotCord.Admission.Legacy
import Std.Data.String.ToNat

/-!
# The full projection

Every row asks for an edge of a source of its own, so after a full synchronization the open edges are the wanted ones. The edges a decision on admission rests on depend on nothing and do not expire: one of them is live exactly if a row asks for it, as long as its ends are known.

`sync_access_graph` of `hub/services/access_graph_sync.py` for every kind of edge: beside the kinds that are written through, the offers that open policies make, management grants, contacts and pending requests, blocks and room members. The terms of an edge are those a decision reads; the others, the names, the event log and the counters are left out.
-/

namespace BotCord.Admission

open Access (Instant PrincipalId EdgeKind EdgeStatus Terms publicPrincipalId)
open Rooms (RoomRole)
open Spaces (UserId AgentId Source NodeKind Fields Edge EdgeRow Projection selectWanted)
open Subscriptions (ParticipantType)

inductive LegacyTable
  | offer | agentManagementGrant | contact | contactRequest | block | roomMember

def LegacyTable.name : LegacyTable → String
  | .offer => "offer"
  | .agentManagementGrant => "agent_management_grant"
  | .contact => "contact"
  | .contactRequest => "contact_request"
  | .block => "block"
  | .roomMember => "room_member"

def sourceOf (table : LegacyTable) (key : String) : Source := .other (table.name ++ ":" ++ key)

/-- `_participant_kind` -/
def participantKind : ParticipantType → NodeKind
  | .agent => .agent
  | .human => .user

/-- `_initial_capability` -/
def initialCapability (createdAt : Instant) (cutoff : Option Instant) (default : Option String) : String :=
  if cutoff.any (createdAt < ·) then "full"
  else (default.filter fun capability => capability = "consult" ∨ capability = "full").getD "consult"

def roleText : RoomRole → String
  | .owner => "owner"
  | .admin => "admin"
  | .member => "member"

namespace Tables

variable (t : Tables)

def offerTerms (agentId : AgentId) : Terms where
  direct := effectiveContactPolicy (t.policies agentId) = .open_
  roomInvite := effectiveRoomInvitePolicy (t.policies agentId) = .open_

def offerFields (agent : Spaces.Agent) : Fields where
  kind := .offer
  fromId := publicPrincipalId
  fromKind := .everyone
  toId := agent.agentId
  toKind := .agent
  role := some "consult"
  issuedBy := (t.spaces.ownerOf agent).map (·.1)
  terms := t.offerTerms agent.agentId

def offerEdge (agent : Spaces.Agent) : Option Edge :=
  if (t.offerTerms agent.agentId).direct || (t.offerTerms agent.agentId).roomInvite then
    some
      { source := sourceOf .offer agent.agentId
        fields := t.offerFields agent
        capability := some (initialCapability (t.policies agent.agentId).createdAt t.legacyFullBefore
          (some (t.policies agent.agentId).nonOwnerCapability)) }
  else none

def manageEdge (now : Instant) (g : AgentManagementGrant) : Option Edge :=
  (t.spaces.humanOf g.userId).map fun user =>
    { source := sourceOf .agentManagementGrant g.id.repr
      fields :=
        { kind := .manage, fromId := user, fromKind := .user, toId := g.agentId, toKind := .agent, role := some g.scope
          status := Spaces.Tables.lifecycle g.expiresAt g.revokedAt now
          issuedBy := g.createdByUserId.bind t.spaces.humanOf, expiresAt := g.expiresAt, revokedAt := g.revokedAt } }

def agentDefault (id : PrincipalId) : Option String :=
  (t.spaces.agents.get? id).map fun a => (t.policies a.agentId).nonOwnerCapability

def contactEdge (c : Contact) : Edge where
  source := sourceOf .contact c.id.repr
  fields :=
    { kind := .connection, fromId := c.contactAgentId, fromKind := participantKind c.peerType, toId := c.ownerId
      toKind := participantKind c.ownerType, role := some "consult", issuedBy := some c.ownerId }
  capability := some (initialCapability c.createdAt t.legacyFullBefore (t.agentDefault c.ownerId))

def requestEdge (r : ContactRequest) : Option Edge :=
  if r.state = .pending ∧ (r.fromAgentId, r.toAgentId) ∉ t.contacts.rows.map fun c => (c.contactAgentId, c.ownerId) then
    some
      { source := sourceOf .contactRequest r.id.repr
        fields :=
          { kind := .connection, fromId := r.fromAgentId, fromKind := participantKind r.fromType, toId := r.toAgentId
            toKind := participantKind r.toType, role := some "consult", status := .pending
            issuedBy := some r.fromAgentId }
        capability := some "consult" }
  else none

def blockEdge (b : Block) : Edge where
  source := sourceOf .block b.id.repr
  fields :=
    { kind := .block, fromId := b.ownerId, fromKind := participantKind b.ownerType, toId := b.blockedAgentId
      toKind := participantKind b.blockedType, issuedBy := some b.ownerId }

def orgRooms : List RoomId := (t.rooms.rows.filter (·.spaceId.isSome)).map (·.roomId)

def memberEdge (m : RoomMember) : Edge where
  source := sourceOf .roomMember m.id.repr
  fields :=
    { kind := .member, fromId := m.agentId, fromKind := participantKind m.participantType, toId := m.roomId
      toKind := .conversation, role := some (roleText m.role) }
  capability :=
    if participantKind m.participantType = .agent then
      some (if m.roomId ∈ t.orgRooms then "consult"
        else initialCapability m.joinedAt t.legacyFullBefore (t.agentDefault m.agentId))
    else none

/-- `_desired_rest` after the grants. -/
def desiredRest (now : Instant) : List Edge :=
  t.managementGrants.rows.filterMap (t.manageEdge now) ++ t.contacts.rows.map t.contactEdge
    ++ t.contactRequests.rows.filterMap t.requestEdge ++ t.blocks.rows.map blockEdge
    ++ t.roomMembers.rows.map t.memberEdge

/-- `_desired_edges` of every kind. -/
def desiredEdges (now : Instant) : List Edge :=
  (t.spaces.agents.rows.filter (·.status = .active)).flatMap
      (fun a => (t.spaces.ownershipEdge a).toList ++ (t.offerEdge a).toList)
    ++ t.spaces.userMemberships.rows.filterMap t.spaces.userMembershipEdge
    ++ t.spaces.agentMemberships.rows.filterMap t.spaces.agentMembershipEdge
    ++ t.spaces.grants.rows.filterMap (t.spaces.grantEdge now) ++ t.desiredRest now

end Tables

theorem revoked_source (now : Instant) (r : EdgeRow) :
    { r with fields := { r.fields with status := .revoked, revokedAt := some now }, version := r.version + 1 }.source =
      r.source := rfl

theorem revoked_id (now : Instant) (r : EdgeRow) :
    { r with fields := { r.fields with status := .revoked, revokedAt := some now }, version := r.version + 1 }.id =
      r.id := rfl

/-- Edges that nothing asks for are revoked, whatever their kind. -/
def revokeUnwanted (p : Projection) (wanted : List Edge) (now : Instant) : Projection :=
  p.modifyRows (fun r => r.source ∉ wanted.map (·.source) ∧ r.fields.Open)
    (fun r => { r with fields := { r.fields with status := .revoked, revokedAt := some now }, version := r.version + 1 })
    (revoked_source now) (revoked_id now)

def wantedEdges (p : Projection) (t : Tables) (now : Instant) : List Edge :=
  selectWanted ((p.syncPrincipals t.spaces.desiredPrincipals).principals.rows.map (·.id)) [] (t.desiredEdges now)

/-- `sync_access_graph` of every kind. -/
def syncAccessGraph (p : Projection) (t : Tables) (now : Instant) : Projection :=
  let wanted := wantedEdges p t now
  let p := revokeUnwanted (p.syncPrincipals t.spaces.desiredPrincipals) wanted now
  let p := (wanted.filter (¬ ·.fields.Open) ++ wanted.filter (·.fields.Open)).foldl Projection.upsert p
  wanted.foldl Projection.syncDeps p

end BotCord.Admission

namespace BotCord.Admission

open Access (Instant PrincipalId EdgeKind AccessEdge Graph publicPrincipalId)
open Spaces (UserId AgentId Source Fields Edge EdgeRow Projection Settled selectWanted)

variable {t : Tables} {now : Instant} {e : Edge}

@[simp] theorem sourceOf_inj {x y : LegacyTable} {k l : String} : sourceOf x k = sourceOf y l ↔ x = y ∧ k = l := by
  constructor
  · intro h
    have htext := congrArg String.toList (Source.other.inj h)
    cases x <;> cases y <;> simp_all [LegacyTable.name, String.toList_append, String.toList_inj]
  · rintro ⟨rfl, rfl⟩
    rfl

/-- The row that asks for an edge which is not of the kinds that are written through. -/
inductive Origin
  | offer (agentId : AgentId)
  | managementGrant (id : ℕ)
  | contact (id : ℕ)
  | contactRequest (id : ℕ)
  | block (id : ℕ)
  | roomMember (id : ℕ)

def Origin.source : Origin → Source
  | .offer agentId => sourceOf .offer agentId
  | .managementGrant id => sourceOf .agentManagementGrant id.repr
  | .contact id => sourceOf .contact id.repr
  | .contactRequest id => sourceOf .contactRequest id.repr
  | .block id => sourceOf .block id.repr
  | .roomMember id => sourceOf .roomMember id.repr

def Origin.edge (t : Tables) (now : Instant) : Origin → Option Edge
  | .offer agentId => (t.spaces.agents.get? agentId).bind t.offerEdge
  | .managementGrant id => (t.managementGrants.get? id).bind (t.manageEdge now)
  | .contact id => (t.contacts.get? id).map t.contactEdge
  | .contactRequest id => (t.contactRequests.get? id).bind t.requestEdge
  | .block id => (t.blocks.get? id).map Tables.blockEdge
  | .roomMember id => (t.roomMembers.get? id).map t.memberEdge

theorem Origin.source_injective {o o' : Origin} (h : o.source = o'.source) : o = o' := by
  cases o <;> cases o' <;> simp_all [Origin.source, Nat.repr_inj]

namespace Tables

theorem offerEdge_eq_some {a : Spaces.Agent} (he : t.offerEdge a = some e) :
    e.source = sourceOf .offer a.agentId ∧ e.fields = t.offerFields a ∧ e.deps = [] := by
  unfold offerEdge at he
  split at he
  · cases he
    exact ⟨rfl, rfl, rfl⟩
  · cases he

theorem requestEdge_eq_some {r : ContactRequest} (he : t.requestEdge r = some e) :
    (∀ c ∈ t.contacts, ¬ (c.contactAgentId = r.fromAgentId ∧ c.ownerId = r.toAgentId)) ∧
      e.source = sourceOf .contactRequest r.id.repr ∧ e.fields.kind = .connection ∧
      e.fields.fromId = r.fromAgentId ∧ e.fields.toId = r.toAgentId ∧ e.fields.status = .pending := by
  unfold requestEdge at he
  split at he
  · rename_i hopen
    cases he
    refine ⟨fun c hc hpair => hopen.2 (List.mem_map.mpr ⟨c, hc, ?_⟩), rfl, rfl, rfl, rfl, rfl⟩
    rw [hpair.1, hpair.2]
  · cases he

theorem manageEdge_eq_some {g : AgentManagementGrant} (he : t.manageEdge now g = some e) :
    e.source = sourceOf .agentManagementGrant g.id.repr ∧ e.fields.kind = .manage := by
  obtain ⟨user, -, rfl⟩ := Option.map_eq_some_iff.mp he
  exact ⟨rfl, rfl⟩

theorem mem_desiredRest :
    e ∈ t.desiredRest now ↔ (∃ g ∈ t.managementGrants, t.manageEdge now g = some e) ∨
      (∃ c ∈ t.contacts, t.contactEdge c = e) ∨ (∃ r ∈ t.contactRequests, t.requestEdge r = some e) ∨
      (∃ b ∈ t.blocks, blockEdge b = e) ∨ ∃ m ∈ t.roomMembers, t.memberEdge m = e := by
  simp only [desiredRest, List.mem_append, List.mem_filterMap, List.mem_map, or_assoc]
  rfl

theorem mem_desiredEdges :
    e ∈ t.desiredEdges now ↔ e ∈ t.spaces.desiredEdges now ∨
      (∃ a ∈ t.spaces.agents, a.status = .active ∧ t.offerEdge a = some e) ∨ e ∈ t.desiredRest now := by
  simp only [desiredEdges, Spaces.Tables.desiredEdges, List.mem_append, List.mem_flatMap, List.mem_filterMap,
    List.mem_filter, Option.mem_toList, decide_eq_true_eq]
  constructor
  · rintro ((((⟨a, ⟨ha, hactive⟩, howner | hoffer⟩ | h) | h) | h) | h)
    · exact .inl (.inl (.inl (.inl ⟨a, ⟨ha, hactive⟩, howner⟩)))
    · exact .inr (.inl ⟨a, ha, hactive, hoffer⟩)
    · exact .inl (.inl (.inl (.inr h)))
    · exact .inl (.inl (.inr h))
    · exact .inl (.inr h)
    · exact .inr (.inr h)
  · rintro ((((⟨a, ha, howner⟩ | h) | h) | h) | ⟨a, ha, hactive, hoffer⟩ | h)
    · exact .inl (.inl (.inl (.inl ⟨a, ha, .inl howner⟩)))
    · exact .inl (.inl (.inl (.inr h)))
    · exact .inl (.inl (.inr h))
    · exact .inl (.inr h)
    · exact .inl (.inl (.inl (.inl ⟨a, ⟨ha, hactive⟩, .inr hoffer⟩)))
    · exact .inr h

theorem exists_origin
    (he : (∃ a ∈ t.spaces.agents, a.status = .active ∧ t.offerEdge a = some e) ∨ e ∈ t.desiredRest now) :
    ∃ o : Origin, o.source = e.source ∧ o.edge t now = some e := by
  rw [mem_desiredRest] at he
  rcases he with ⟨a, ha, -, he⟩ | ⟨g, hg, he⟩ | ⟨c, hc, rfl⟩ | ⟨r, hr, he⟩ | ⟨b, hb, rfl⟩ | ⟨m, hm, rfl⟩
  · exact ⟨.offer a.agentId, (offerEdge_eq_some he).1.symm, by rw [Origin.edge, Keyed.get?_key ha, Option.bind_some, he]⟩
  · exact ⟨.managementGrant g.id, (manageEdge_eq_some he).1.symm,
      by rw [Origin.edge, Keyed.get?_key hg, Option.bind_some, he]⟩
  · exact ⟨.contact c.id, rfl, by rw [Origin.edge, Keyed.get?_key hc, Option.map_some]⟩
  · exact ⟨.contactRequest r.id, (requestEdge_eq_some he).2.1.symm,
      by rw [Origin.edge, Keyed.get?_key hr, Option.bind_some, he]⟩
  · exact ⟨.block b.id, rfl, by rw [Origin.edge, Keyed.get?_key hb, Option.map_some]⟩
  · exact ⟨.roomMember m.id, rfl, by rw [Origin.edge, Keyed.get?_key hm, Option.map_some]⟩

theorem distinct_desiredEdges (t : Tables) (now : Instant) : Projection.Distinct (t.desiredEdges now) := by
  have hother : ∀ {e : Edge}, (∃ o : Origin, o.source = e.source ∧ o.edge t now = some e) →
      ∀ e' ∈ t.spaces.desiredEdges now, e'.source ≠ e.source := by
    rintro e ⟨o, ho, -⟩ e' he' hsame
    have hnot := fun key => (@Spaces.Tables.desired_source t.spaces now e' he' key).1
    rw [hsame, ← ho] at hnot
    cases o <;> exact hnot _ rfl
  intro e he e' he' hsource
  rcases mem_desiredEdges.mp he with he | he <;> rcases mem_desiredEdges.mp he' with he' | he'
  · exact Spaces.distinct_of_sources (t.spaces.nodup_sources now) e he e' he' hsource
  · exact absurd hsource (hother (exists_origin he') e he)
  · exact absurd hsource.symm (hother (exists_origin he) e' he')
  · obtain ⟨o, ho, hedge⟩ := exists_origin he
    obtain ⟨o', ho', hedge'⟩ := exists_origin he'
    obtain rfl := Origin.source_injective (ho.trans (hsource.trans ho'.symm))
    exact Option.some.inj (hedge.symm.trans hedge')

theorem desired_cases (he : e ∈ t.desiredEdges now) :
    match e.fields.kind with
    | .ownership => ∃ a ∈ t.spaces.agents, a.status = .active ∧ t.spaces.ownershipEdge a = some e
    | .grant => ∃ g ∈ t.spaces.grants, t.spaces.grantEdge now g = some e
    | .offer => ∃ a ∈ t.spaces.agents, a.status = .active ∧ t.offerEdge a = some e
    | .connection => (∃ c ∈ t.contacts, t.contactEdge c = e) ∨ ∃ r ∈ t.contactRequests, t.requestEdge r = some e
    | .block => ∃ b ∈ t.blocks, blockEdge b = e
    | .member => ∃ m ∈ t.roomMembers, t.memberEdge m = e
    | _ => True := by
  rw [mem_desiredEdges, mem_desiredRest, Spaces.Tables.mem_desiredEdges] at he
  rcases he with (⟨a, ha, hactive, he⟩ | ⟨m, -, he⟩ | ⟨m, -, he⟩ | ⟨g, hg, he⟩) | ⟨a, ha, hactive, he⟩ | ⟨g, -, he⟩
    | ⟨c, hc, rfl⟩ | ⟨r, hr, he⟩ | ⟨b, hb, rfl⟩ | ⟨m, hm, rfl⟩
  · have hkind : e.fields.kind = .ownership := by
      obtain ⟨_, -, rfl⟩ := Option.map_eq_some_iff.mp he
      rfl
    rw [hkind]
    exact ⟨a, ha, hactive, he⟩
  · obtain ⟨_, -, _, -, -, -, rfl⟩ := Spaces.Tables.userMembershipEdge_eq_some he
    trivial
  · obtain ⟨_, -, -, rfl⟩ := Spaces.Tables.agentMembershipEdge_eq_some he
    trivial
  · have hkind : e.fields.kind = .grant := by
      obtain ⟨_, -, rfl⟩ := Option.map_eq_some_iff.mp he
      rfl
    rw [hkind]
    exact ⟨g, hg, he⟩
  · have hkind : e.fields.kind = .offer := congrArg Fields.kind (offerEdge_eq_some he).2.1
    rw [hkind]
    exact ⟨a, ha, hactive, he⟩
  · rw [(manageEdge_eq_some he).2]
    trivial
  · exact .inl ⟨c, hc, rfl⟩
  · rw [(requestEdge_eq_some he).2.2.1]
    exact .inr ⟨r, hr, he⟩
  · exact ⟨b, hb, rfl⟩
  · exact ⟨m, hm, rfl⟩

end Tables

/-- The ids of the principals after they were synchronized. -/
def Knows (p : Projection) (t : Tables) (id : PrincipalId) : Prop :=
  id ∈ (p.syncPrincipals t.spaces.desiredPrincipals).principals.rows.map (·.id)

variable {p : Projection}

theorem knows_of_mem {want : Access.AccessPrincipal} (h : want ∈ t.spaces.desiredPrincipals) :
    Knows p t want.id := by
  have hfold : ∀ (wanted : List Access.AccessPrincipal) (q : Projection) (id : PrincipalId),
      (id ∈ wanted.map (·.id) ∨ id ∈ q.principals.rows.map (·.id)) →
        id ∈ (wanted.foldl Projection.putPrincipal q).principals.rows.map (·.id) := by
    intro wanted
    induction wanted with
    | nil =>
      rintro q id (hnil | hid)
      · exact absurd hnil List.not_mem_nil
      · exact hid
    | cons first rest ih =>
      intro q id hid
      refine ih (q.putPrincipal first) id ?_
      rw [List.map_cons, List.mem_cons] at hid
      by_cases hfirst : id = first.id
      · exact .inr (List.mem_map.mpr ⟨first, Projection.mem_putPrincipal_self q first, hfirst.symm⟩)
      · refine (hid.imp_left (·.resolve_left hfirst)).imp_right fun hold => ?_
        obtain ⟨x, hx, rfl⟩ := List.mem_map.mp hold
        exact List.mem_map.mpr ⟨x, Projection.mem_putPrincipal_of_ne hfirst hx, rfl⟩
  exact hfold _ _ _ (.inl (List.mem_map_of_mem h))

theorem knows_agent {a : Spaces.Agent} (ha : a ∈ t.spaces.agents) : Knows p t a.agentId :=
  knows_of_mem (Spaces.Consistent.mem_principals_agent ha)

theorem knows_user {u : Spaces.User} (hu : u ∈ t.spaces.users) : Knows p t u.humanId :=
  knows_of_mem (Spaces.Consistent.mem_principals_user hu)

theorem knows_organization {o : Spaces.Organization} (ho : o ∈ t.spaces.organizations) :
    Knows p t o.principalId := by
  obtain ⟨s, hs, hspace⟩ := t.organization_space o ho
  exact knows_of_mem (Spaces.Consistent.mem_principals_organization ho hs hspace)

theorem knows_public : Knows p t publicPrincipalId :=
  @knows_of_mem t p { id := publicPrincipalId } List.mem_cons_self

theorem knows_sender {sender : Principal} (h : t.Knows sender) : Knows p t sender.id := by
  unfold Tables.Knows at h
  cases htype : sender.type <;> rw [htype] at h
  · obtain ⟨a, ha, hid⟩ := h
    exact hid ▸ knows_agent ha
  · obtain ⟨u, hu, hid⟩ := h
    exact hid ▸ knows_user hu

theorem mem_of_mem_selectWanted {known : List PrincipalId}
    {seen : List (EdgeKind × PrincipalId × PrincipalId × PrincipalId)} {edges : List Edge}
    (h : e ∈ selectWanted known seen edges) : e ∈ edges := by
  induction edges generalizing seen with
  | nil => exact h
  | cons first rest ih =>
    unfold selectWanted at h
    split_ifs at h
    · exact List.mem_cons_of_mem _ (ih h)
    · exact (List.mem_cons.mp h).elim (fun heq => heq ▸ List.mem_cons_self) fun hr => List.mem_cons_of_mem _ (ih hr)
    · exact (List.mem_cons.mp h).elim (fun heq => heq ▸ List.mem_cons_self) fun hr => List.mem_cons_of_mem _ (ih hr)
    · exact List.mem_cons_of_mem _ (ih h)

theorem mem_selectWanted {known : List PrincipalId} {seen : List (EdgeKind × PrincipalId × PrincipalId × PrincipalId)}
    {edges : List Edge} (he : e ∈ edges)
    (hends : e.fields.fromId ∈ known ∧ (e.fields.toKind = .conversation ∨ e.fields.toId ∈ known))
    (hkey : ∀ e' ∈ edges, e'.fields.key = e.fields.key → e' = e) (hseen : e.fields.key ∉ seen) :
    e ∈ selectWanted known seen edges := by
  induction edges generalizing seen with
  | nil => exact absurd he List.not_mem_nil
  | cons first rest ih =>
    by_cases hfirst : first = e
    · subst hfirst
      unfold selectWanted
      rw [if_neg (not_not.mpr hends)]
      split_ifs
      · exact List.mem_cons_self
      · exact List.mem_cons_self
    · have hrest := (List.mem_cons.mp he).resolve_left (Ne.symm hfirst)
      have hkeys := fun e' he' => hkey e' (List.mem_cons_of_mem first he')
      unfold selectWanted
      split_ifs
      · exact ih hrest hkeys hseen
      · refine List.mem_cons_of_mem _ (ih hrest hkeys ?_)
        rw [List.mem_cons, not_or]
        exact ⟨fun hsame => hfirst (hkey first List.mem_cons_self hsame.symm), hseen⟩
      · exact List.mem_cons_of_mem _ (ih hrest hkeys hseen)
      · exact ih hrest hkeys hseen

theorem mem_wantedEdges (he : e ∈ t.desiredEdges now) (hfrom : Knows p t e.fields.fromId)
    (hto : e.fields.toKind = .conversation ∨ Knows p t e.fields.toId)
    (hkey : ∀ e' ∈ t.desiredEdges now, e'.fields.key = e.fields.key → e' = e) : e ∈ wantedEdges p t now :=
  mem_selectWanted he ⟨hfrom, hto⟩ hkey List.not_mem_nil

theorem applied_syncAccessGraph (p : Projection) (t : Tables) (now : Instant) :
    Projection.Applied (wantedEdges p t now)
      (revokeUnwanted (p.syncPrincipals t.spaces.desiredPrincipals) (wantedEdges p t now) now)
      (syncAccessGraph p t now) :=
  Projection.applied (fun x hx y hy => t.distinct_desiredEdges now x (mem_of_mem_selectWanted hx) y
    (mem_of_mem_selectWanted hy)) _

theorem exists_wanted {row : EdgeRow} (hrow : row ∈ (syncAccessGraph p t now).rows)
    (hopen : row.fields.Open) : ∃ want ∈ wantedEdges p t now, Settled row want := by
  have happlied := applied_syncAccessGraph p t now
  by_cases hwanted : row.source ∈ (wantedEdges p t now).map (·.source)
  · obtain ⟨want, hwant, hsource⟩ := List.mem_map.mp hwanted
    obtain ⟨row', hrow', hsettled⟩ := happlied.edge want hwant
    obtain rfl := Keyed.eq_of_key hrow hrow' (hsource.symm.trans hsettled.source.symm)
    exact ⟨want, hwant, hsettled⟩
  · obtain ⟨r, -, hr⟩ := Projection.mem_modifyRows.mp ((happlied.other row hwanted).mp hrow)
    split at hr
    · -- the row was revoked just before
      rw [← hr] at hopen
      exact absurd hopen (by simp [Fields.Open])
    · rename_i hkept
      rw [hr] at hkept
      exact absurd ⟨hwanted, hopen⟩ hkept

/-- An edge that depends on nothing and does not expire. -/
def Plain (want : Edge) : Prop := want.deps = [] ∧ want.fields.expiresAt = none

theorem live_of_plain {row : EdgeRow} {want : Edge} (hwant : want ∈ wantedEdges p t now)
    (hrow : row ∈ (syncAccessGraph p t now).rows) (hsettled : Settled row want) (hplain : Plain want)
    (hactive : want.fields.status = .active) (later : Instant) :
    (syncAccessGraph p t now).graph.Live later row.toEdge := by
  refine ⟨(congrArg Fields.status hsettled.fields).trans hactive, ?_, fun d hd hid => ?_⟩
  · have hnone : row.fields.expiresAt = none := (congrArg Fields.expiresAt hsettled.fields).trans hplain.2
    show row.fields.expiresAt.all (later < ·) = true
    rw [hnone]
    rfl
  · have htarget := ((applied_syncAccessGraph p t now).deps want hwant row hrow hsettled.source d).mp ⟨hd, hid⟩
    rw [Projection.targets, hplain.1] at htarget
    exact absurd htarget List.not_mem_nil

theorem exists_live_iff {later : Instant} {cond : AccessEdge → Prop} (fields : Fields → Prop)
    (hcond : ∀ row : EdgeRow, cond row.toEdge ↔ fields row.fields)
    (hplain : ∀ want ∈ t.desiredEdges now, fields want.fields → Plain want) :
    (∃ x ∈ (syncAccessGraph p t now).graph.edges, (syncAccessGraph p t now).graph.Live later x ∧ cond x) ↔
      ∃ want ∈ wantedEdges p t now, want.fields.status = .active ∧ fields want.fields := by
  constructor
  · rintro ⟨x, hx, hlive, hx'⟩
    obtain ⟨row, hrow, rfl⟩ := List.mem_map.mp hx
    obtain ⟨want, hwant, hsettled⟩ := exists_wanted hrow (.inr hlive.1)
    have hfields := hsettled.fields ▸ (hcond row).mp hx'
    exact ⟨want, hwant, (congrArg Fields.status hsettled.fields).symm.trans hlive.1, hfields⟩
  · rintro ⟨want, hwant, hactive, hfields⟩
    obtain ⟨row, hrow, hsettled⟩ := (applied_syncAccessGraph p t now).edge want hwant
    refine ⟨row.toEdge, List.mem_map_of_mem hrow, ?_, (hcond row).mpr (hsettled.fields ▸ hfields)⟩
    exact live_of_plain hwant hrow hsettled (hplain want (mem_of_mem_selectWanted hwant) hfields) hactive later

end BotCord.Admission
