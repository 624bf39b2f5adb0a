import BotCord.Admission.Projected

/-!
# The edges between a sender and an agent

What the selects of a decision find in the graph after a full synchronization, in terms of the tables: a block or a contact of the two ids whatever its row says they are, the offer of an active agent whose policies are open, the owner of an active agent, the rooms that both are members of.
-/

namespace BotCord.Admission

open Access (Instant PrincipalId EdgeKind AccessEdge Graph liveEdges publicPrincipalId)
open Spaces (UserId AgentId Fields Edge EdgeRow Projection Settled)

namespace Tables

variable (t : Tables)

/-- The owner has the peer among its contacts, whatever the row says the peer is. -/
def lists (ownerId peerId : PrincipalId) : Prop := ∃ c ∈ t.contacts, c.ownerId = ownerId ∧ c.contactAgentId = peerId
deriving Decidable

/-- The owner that the graph knows of an agent: only an active agent has one there. -/
def ownerPrincipal (agentId : AgentId) : Option PrincipalId :=
  ((t.spaces.agents.get? agentId).filter (·.status = .active)).bind fun a =>
    ((t.spaces.ownerOf a).map (·.1)).filter (· ≠ "")

/-- The sender is the agent's owner, or an agent of the same owner. -/
def ownedAlike (agentId : AgentId) (sender : Principal) : Prop :=
  ∃ owner, t.ownerPrincipal agentId = some owner ∧
    (owner = sender.id ∨ sender.type = .agent ∧ t.ownerPrincipal sender.id = some owner)

instance (agentId : AgentId) (sender : Principal) : Decidable (t.ownedAlike agentId sender) :=
  decidable_of_iff ((t.ownerPrincipal agentId).any fun owner =>
    owner = sender.id ∨ sender.type = .agent ∧ t.ownerPrincipal sender.id = some owner) (by
    simp [ownedAlike, Option.any_eq_true])

/-- No grant on the agent to the sender. -/
def Ungranted (agentId : AgentId) (senderId : PrincipalId) : Prop :=
  ∀ g ∈ t.spaces.grants, g.agentId = agentId → t.spaces.humanOf g.granteeUserId ≠ some senderId
deriving Decidable

end Tables

variable {t : Tables} {p : Projection} {now : Instant} {e : Edge} (db : Access.Session (syncAccessGraph p t now).graph)
  (later : Instant)

theorem head?_liveEdges_isSome {graph : Graph} (db : Access.Session graph) {later : Instant} {cond : AccessEdge → Bool} :
    (liveEdges db cond later).head?.isSome ↔ ∃ x ∈ graph.edges, graph.Live later x ∧ cond x = true := by
  rw [List.isSome_head?, ne_eq, List.eq_nil_iff_forall_not_mem, not_forall]
  simp only [not_not, Access.mem_liveEdges db]

theorem exists_block_iff {ownerId blockedId : PrincipalId} (howner : Knows p t ownerId) (hblocked : Knows p t blockedId) :
    (∃ want ∈ wantedEdges p t now, want.fields.status = .active ∧
        want.fields.kind = .block ∧ want.fields.fromId = ownerId ∧ want.fields.toId = blockedId) ↔
      ∃ b ∈ t.blocks, b.ownerId = ownerId ∧ b.blockedAgentId = blockedId := by
  constructor
  · rintro ⟨want, hwant, -, hkind, hfrom, hto⟩
    have hrow := Tables.desired_cases (mem_of_mem_selectWanted hwant)
    rw [hkind] at hrow
    obtain ⟨b, hb, rfl⟩ := hrow
    exact ⟨b, hb, hfrom, hto⟩
  · rintro ⟨b, hb, rfl, rfl⟩
    refine ⟨Tables.blockEdge b, mem_wantedEdges ?_ howner (.inr hblocked) fun e' he' hkey => ?_, rfl, rfl, rfl, rfl⟩
    · rw [Tables.mem_desiredEdges, Tables.mem_desiredRest]
      exact .inr (.inr (.inr (.inr (.inr (.inl ⟨b, hb, rfl⟩)))))
    · have hrow := Tables.desired_cases he'
      simp only [Fields.key, Prod.mk.injEq] at hkey
      rw [show e'.fields.kind = .block from hkey.1] at hrow
      obtain ⟨b', hb', rfl⟩ := hrow
      obtain rfl := List.inj_on_of_nodup_map t.uq_block hb' hb (Prod.ext hkey.2.1 hkey.2.2.1)
      rfl

theorem blocked_isSome_iff {ownerId blockedId : PrincipalId} (howner : Knows p t ownerId)
    (hblocked : Knows p t blockedId) :
    (Access.blocked db ownerId blockedId later).isSome ↔
      ∃ b ∈ t.blocks, b.ownerId = ownerId ∧ b.blockedAgentId = blockedId := by
  rw [← exists_block_iff howner hblocked, Access.blocked, head?_liveEdges_isSome]
  refine exists_live_iff (fun f => f.kind = .block ∧ f.fromId = ownerId ∧ f.toId = blockedId) (fun row => ?_)
    fun want hwant hfields => ?_
  · simp only [Bool.and_eq_true, decide_eq_true_eq, and_assoc]
    exact Iff.rfl
  · have hrow := Tables.desired_cases hwant
    rw [hfields.1] at hrow
    obtain ⟨b, -, rfl⟩ := hrow
    exact ⟨rfl, rfl⟩

theorem exists_connection_iff {ownerId peerId : PrincipalId} (howner : Knows p t ownerId) (hpeer : Knows p t peerId) :
    (∃ want ∈ wantedEdges p t now, want.fields.status = .active ∧
        want.fields.kind = .connection ∧ want.fields.fromId = peerId ∧ want.fields.toId = ownerId) ↔
      t.lists ownerId peerId := by
  constructor
  · rintro ⟨want, hwant, hactive, hkind, hfrom, hto⟩
    have hrow := Tables.desired_cases (mem_of_mem_selectWanted hwant)
    rw [hkind] at hrow
    rcases hrow with ⟨c, hc, rfl⟩ | ⟨r, -, hr⟩
    · exact ⟨c, hc, hto, hfrom⟩
    · rw [(Tables.requestEdge_eq_some hr).2.2.2.2.2] at hactive
      cases hactive
  · rintro ⟨c, hc, rfl, rfl⟩
    refine ⟨t.contactEdge c, mem_wantedEdges ?_ hpeer (.inr howner) fun e' he' hkey => ?_, rfl, rfl, rfl, rfl⟩
    · rw [Tables.mem_desiredEdges, Tables.mem_desiredRest]
      exact .inr (.inr (.inr (.inl ⟨c, hc, rfl⟩)))
    · have hrow := Tables.desired_cases he'
      simp only [Fields.key, Prod.mk.injEq] at hkey
      rw [show e'.fields.kind = .connection from hkey.1] at hrow
      rcases hrow with ⟨c', hc', rfl⟩ | ⟨r, -, hr⟩
      · obtain rfl := List.inj_on_of_nodup_map t.uq_contact hc' hc (Prod.ext hkey.2.2.1 hkey.2.1)
        rfl
      · obtain ⟨hnone, -, -, hfrom, hto, -⟩ := Tables.requestEdge_eq_some hr
        exact absurd ⟨hkey.2.1.symm.trans hfrom, hkey.2.2.1.symm.trans hto⟩ (hnone c hc)

theorem connections_isSome_iff {ownerId peerId : PrincipalId} (howner : Knows p t ownerId) (hpeer : Knows p t peerId) :
    (Access.connections db peerId ownerId later).head?.isSome ↔ t.lists ownerId peerId := by
  have hexists := @exists_connection_iff t p now _ _ howner hpeer
  rw [← hexists, Access.connections, head?_liveEdges_isSome]
  refine exists_live_iff (fun f => f.kind = .connection ∧ f.fromId = peerId ∧ f.toId = ownerId) (fun row => ?_)
    fun want hwant hfields => ?_
  · simp only [Bool.and_eq_true, decide_eq_true_eq, and_assoc]
    exact Iff.rfl
  · have hrow := Tables.desired_cases hwant
    rw [hfields.1] at hrow
    rcases hrow with ⟨c, -, rfl⟩ | ⟨r, -, hr⟩
    · exact ⟨rfl, rfl⟩
    · unfold Tables.requestEdge at hr
      split at hr <;> cases hr
      exact ⟨rfl, rfl⟩

variable {a : Spaces.Agent}

theorem mem_offers (ha : a ∈ t.spaces.agents) {x : AccessEdge}
    (hx : x ∈ Access.offers db a.agentId later) : a.status = .active ∧ x.terms = t.offerTerms a.agentId := by
  obtain ⟨hedge, hlive, hcond⟩ := (Access.mem_liveEdges db).mp hx
  simp only [Bool.and_eq_true, decide_eq_true_eq] at hcond
  obtain ⟨row, hrow, rfl⟩ := List.mem_map.mp hedge
  obtain ⟨want, hwant, hsettled⟩ := exists_wanted hrow (.inr hlive.1)
  have hoffer := Tables.desired_cases (mem_of_mem_selectWanted hwant)
  rw [← hsettled.fields, show row.fields.kind = .offer from hcond.1.1] at hoffer
  obtain ⟨a', ha', hactive, hedge'⟩ := hoffer
  have hfields := hsettled.fields.trans (Tables.offerEdge_eq_some hedge').2.1
  obtain rfl := Keyed.eq_of_key ha' ha ((congrArg Fields.toId hfields).symm.trans hcond.2)
  exact ⟨hactive, congrArg Fields.terms hfields⟩

theorem offers_ne_nil (ha : a ∈ t.spaces.agents) (hactive : a.status = .active)
    (hterms : (t.offerTerms a.agentId).direct || (t.offerTerms a.agentId).roomInvite) :
    (Access.offers db a.agentId later).head?.isSome := by
  rw [Access.offers, head?_liveEdges_isSome]
  refine (exists_live_iff (fun f => f.kind = .offer ∧ f.fromId = publicPrincipalId ∧ f.toId = a.agentId)
    (fun row => ?_) fun want hwant hfields => ?_).mpr ?_
  · simp only [Bool.and_eq_true, decide_eq_true_eq, and_assoc]
    exact Iff.rfl
  · have hrow := Tables.desired_cases hwant
    rw [hfields.1] at hrow
    obtain ⟨a', -, -, hedge⟩ := hrow
    obtain ⟨-, hfields', hdeps⟩ := Tables.offerEdge_eq_some hedge
    exact ⟨hdeps, by rw [hfields']; rfl⟩
  · obtain ⟨want, hedge⟩ : ∃ want, t.offerEdge a = some want := ⟨_, if_pos hterms⟩
    obtain ⟨-, hfields, -⟩ := Tables.offerEdge_eq_some hedge
    refine ⟨want, mem_wantedEdges (Tables.mem_desiredEdges.mpr (.inr (.inl ⟨a, ha, hactive, hedge⟩))) ?_ (.inr ?_)
      fun e' he' hkey => ?_, ?_⟩
    · rw [hfields]
      exact knows_public
    · rw [hfields]
      exact knows_agent ha
    · rw [hfields] at hkey
      simp only [Fields.key, Prod.mk.injEq] at hkey
      have hrow := Tables.desired_cases he'
      rw [show e'.fields.kind = .offer from hkey.1] at hrow
      obtain ⟨a', ha', -, hedge'⟩ := hrow
      have hto := congrArg Fields.toId (Tables.offerEdge_eq_some hedge').2.1
      obtain rfl := Keyed.eq_of_key ha' ha (hto.symm.trans hkey.2.2.1)
      exact Option.some.inj (hedge'.symm.trans hedge)
    · rw [hfields]
      exact ⟨rfl, rfl, rfl, rfl⟩

/-- Only an active agent makes an offer, and the offer says which of its policies are open. -/
theorem offer_isSome_iff (ha : a ∈ t.spaces.agents) (open_ : Access.Terms → Bool)
    (hopen : open_ (t.offerTerms a.agentId) →
      (t.offerTerms a.agentId).direct || (t.offerTerms a.agentId).roomInvite) :
    ((Access.offers db a.agentId later).head?.filter (open_ ·.terms)).isSome ↔
      a.status = .active ∧ open_ (t.offerTerms a.agentId) := by
  constructor
  · intro hsome
    obtain ⟨x, hx⟩ := Option.isSome_iff_exists.mp hsome
    obtain ⟨hhead, hterms⟩ := Option.filter_eq_some_iff.mp hx
    obtain ⟨hactive, hsame⟩ := mem_offers db later ha (List.mem_of_head? hhead)
    exact ⟨hactive, hsame ▸ hterms⟩
  · rintro ⟨hactive, hterms⟩
    obtain ⟨x, hhead⟩ := Option.isSome_iff_exists.mp (offers_ne_nil db later ha hactive (hopen hterms))
    obtain ⟨-, hsame⟩ := mem_offers db later ha (List.mem_of_head? hhead)
    rw [hhead, Option.filter_some, if_pos (by rw [hsame]; exact hterms)]
    rfl

theorem knows_owner {owner : PrincipalId × Spaces.NodeKind} (h : t.spaces.ownerOf a = some owner) :
    Knows p t owner.1 := by
  have huser : ∀ {userId human}, t.spaces.humanOf userId = some human → Knows p t human := by
    intro userId human hhuman
    obtain ⟨u, hu, rfl⟩ := Option.map_eq_some_iff.mp hhuman
    exact knows_user (Keyed.get?_eq_some_iff.mp hu).1
  unfold Spaces.Tables.ownerOf at h
  split at h
  · obtain ⟨org, horg, rfl⟩ := Option.map_eq_some_iff.mp h
    obtain ⟨o, ho, rfl⟩ := Option.map_eq_some_iff.mp horg
    exact knows_organization (Keyed.get?_eq_some_iff.mp ho).1
  · obtain ⟨human, hhuman, rfl⟩ := Option.map_eq_some_iff.mp h
    exact huser hhuman
  · obtain ⟨human, hhuman, rfl⟩ := Option.map_eq_some_iff.mp h
    obtain ⟨userId, -, hhuman⟩ := Option.bind_eq_some_iff.mp hhuman
    exact huser hhuman

theorem ownershipEdge_eq_some :
    t.spaces.ownershipEdge a = some e ↔ ∃ owner, t.spaces.ownerOf a = some owner ∧ owner.1 ≠ "" ∧
      Spaces.Tables.owns owner.1 owner.2 a.agentId = e := by
  simp only [Spaces.Tables.ownershipEdge, Option.map_eq_some_iff, Option.filter_eq_some_iff, decide_eq_true_eq,
    and_assoc]

variable {agentId : AgentId}

theorem ownerPrincipal_eq_some {owner : PrincipalId} :
    t.ownerPrincipal agentId = some owner ↔ ∃ a ∈ t.spaces.agents, a.agentId = agentId ∧ a.status = .active ∧
      ∃ e, t.spaces.ownershipEdge a = some e ∧ e.fields.fromId = owner := by
  simp only [Tables.ownerPrincipal, Option.bind_eq_some_iff, Option.filter_eq_some_iff, Keyed.get?_eq_some_iff,
    Option.map_eq_some_iff, decide_eq_true_eq, ownershipEdge_eq_some]
  constructor
  · rintro ⟨a, ⟨⟨ha, hid⟩, hactive⟩, ⟨pair, hpair, rfl⟩, hne⟩
    exact ⟨a, ha, hid, hactive, _, ⟨pair, hpair, hne, rfl⟩, rfl⟩
  · rintro ⟨a, ha, hid, hactive, _, ⟨pair, hpair, hne, rfl⟩, rfl⟩
    exact ⟨a, ⟨⟨ha, hid⟩, hactive⟩, ⟨pair, hpair, rfl⟩, hne⟩

theorem exists_ownership {row : EdgeRow} (hrow : row ∈ (syncAccessGraph p t now).rows)
    (hopen : row.fields.Open) (hkind : row.fields.kind = .ownership) :
    ∃ a ∈ t.spaces.agents, a.status = .active ∧ a.agentId = row.fields.toId ∧
      ∃ want, t.spaces.ownershipEdge a = some want ∧ Settled row want := by
  obtain ⟨want, hwant, hsettled⟩ := exists_wanted hrow hopen
  have hcase := Tables.desired_cases (mem_of_mem_selectWanted hwant)
  rw [← hsettled.fields, hkind] at hcase
  obtain ⟨a, ha, hactive, hedge⟩ := hcase
  refine ⟨a, ha, hactive, ?_, want, hedge, hsettled⟩
  obtain ⟨owner, -, -, rfl⟩ := ownershipEdge_eq_some.mp hedge
  exact (congrArg Fields.toId hsettled.fields).symm

theorem soleOwners_syncAccessGraph : (syncAccessGraph p t now).graph.SoleOwners later := by
  rintro x hx y hy ⟨hlive, hkind⟩ ⟨hlive', hkind'⟩ hto
  obtain ⟨row, hrow, rfl⟩ := List.mem_map.mp hx
  obtain ⟨row', hrow', rfl⟩ := List.mem_map.mp hy
  obtain ⟨a, ha, -, hid, want, hwant, hsettled⟩ := exists_ownership hrow (.inr hlive.1) hkind
  obtain ⟨a', ha', -, hid', want', hwant', hsettled'⟩ := exists_ownership hrow' (.inr hlive'.1) hkind'
  obtain rfl := Keyed.eq_of_key ha ha' (hid.trans (hto.trans hid'.symm))
  obtain rfl := Option.some.inj (hwant.symm.trans hwant')
  rw [Keyed.eq_of_key hrow hrow' (hsettled.source.trans hsettled'.source.symm)]

theorem ownedBy_iff {owner : PrincipalId} :
    (syncAccessGraph p t now).graph.OwnedBy later agentId owner ↔ t.ownerPrincipal agentId = some owner := by
  rw [ownerPrincipal_eq_some]
  constructor
  · rintro ⟨x, hx, hlive, hkind, hto, hfrom⟩
    obtain ⟨row, hrow, rfl⟩ := List.mem_map.mp hx
    obtain ⟨a, ha, hactive, hid, want, hwant, hsettled⟩ := exists_ownership hrow (.inr hlive.1) hkind
    exact ⟨a, ha, hid.trans hto, hactive, want, hwant, (congrArg Fields.fromId hsettled.fields).symm.trans hfrom⟩
  · rintro ⟨a, ha, rfl, hactive, want, hedge, rfl⟩
    refine (exists_live_iff (fun f => f.kind = .ownership ∧ f.toId = a.agentId ∧ f.fromId = want.fields.fromId)
      (fun _ => Iff.rfl) fun want' hwant' hfields => ?_).mpr ⟨want, ?_, ?_⟩
    · have hrow := Tables.desired_cases hwant'
      rw [hfields.1] at hrow
      obtain ⟨a', -, -, hedge'⟩ := hrow
      obtain ⟨_, -, -, rfl⟩ := ownershipEdge_eq_some.mp hedge'
      exact ⟨rfl, rfl⟩
    · have hdesired : want ∈ t.desiredEdges now :=
        Tables.mem_desiredEdges.mpr (.inl (Spaces.Tables.mem_desiredEdges.mpr (.inl ⟨a, ha, hactive, hedge⟩)))
      obtain ⟨pair, hpair, -, hwant⟩ := ownershipEdge_eq_some.mp hedge
      refine mem_wantedEdges hdesired ?_ (.inr ?_) fun e' he' hkey => ?_
      · rw [← hwant]
        exact knows_owner hpair
      · rw [← hwant]
        exact knows_agent ha
      · simp only [Fields.key, Prod.mk.injEq] at hkey
        have hrow := Tables.desired_cases he'
        rw [show e'.fields.kind = .ownership by rw [hkey.1, ← hwant]; rfl] at hrow
        obtain ⟨a', ha', -, hedge'⟩ := hrow
        have hto : a'.agentId = a.agentId := by
          have hsame := hkey.2.2.1
          obtain ⟨_, -, -, rfl⟩ := ownershipEdge_eq_some.mp hedge'
          rw [← hwant] at hsame
          exact hsame
        obtain rfl := Keyed.eq_of_key ha' ha hto
        exact Option.some.inj (hedge'.symm.trans hedge)
    · obtain ⟨_, -, -, rfl⟩ := ownershipEdge_eq_some.mp hedge
      exact ⟨rfl, rfl, rfl, rfl⟩

theorem sameOwnerPath_isSome_iff {sender : Principal} (hsender : t.Knows sender) (agentId : AgentId) :
    (Access.sameOwnerPath db sender.id agentId later).isSome ↔ t.ownedAlike agentId sender := by
  rw [Access.sameOwnerPath_isSome_iff (soleOwners_syncAccessGraph later)]
  simp only [Graph.SameOwner, ownedBy_iff, Tables.ownedAlike]
  rw [show sender.id.startsWith "ag_" = true ↔ sender.type = .agent from hsender.startsWith_iff .agent]

theorem sharedConversation_isSome {receiverId : PrincipalId} {sender : Principal} (hreceiver : Knows p t receiverId)
    (hsender : Knows p t sender.id) (h : t.sharesRoom receiverId sender) :
    (Access.sharedConversation db sender.id receiverId).isSome := by
  have hmember : ∀ m ∈ t.roomMembers, Knows p t m.agentId →
      ∃ x ∈ (syncAccessGraph p t now).graph.edges, x.kind = .member ∧ x.status = .active ∧ x.fromId = m.agentId ∧
        x.toId = m.roomId := by
    intro m hm hknown
    have hwant : t.memberEdge m ∈ wantedEdges p t now := by
      refine mem_wantedEdges ?_ hknown (.inl rfl) fun e' he' hkey => ?_
      · rw [Tables.mem_desiredEdges, Tables.mem_desiredRest]
        exact .inr (.inr (.inr (.inr (.inr (.inr ⟨m, hm, rfl⟩)))))
      · simp only [Fields.key, Prod.mk.injEq] at hkey
        have hrow := Tables.desired_cases he'
        rw [show e'.fields.kind = .member from hkey.1] at hrow
        obtain ⟨m', hm', rfl⟩ := hrow
        obtain rfl := List.inj_on_of_nodup_map t.uq_room_member hm' hm (Prod.ext hkey.2.2.1 hkey.2.1)
        rfl
    obtain ⟨row, hrow, hsettled⟩ := (applied_syncAccessGraph p t now).edge _ hwant
    have hfields : ∀ {α : Type} (column : Fields → α), column row.fields = column (t.memberEdge m).fields :=
      fun column => congrArg column hsettled.fields
    exact ⟨row.toEdge, List.mem_map_of_mem hrow, hfields (·.kind), hfields (·.status), hfields (·.fromId), hfields (·.toId)⟩
  obtain ⟨m, hm, ⟨hid, -⟩, n, hn, hroom, hnid, -⟩ := h
  obtain ⟨x, hx, hkind, hactive, hfrom, hto⟩ := hmember m hm (hid ▸ hreceiver)
  obtain ⟨y, hy, hkind', hactive', hfrom', hto'⟩ := hmember n hn (hnid ▸ hsender)
  unfold Access.sharedConversation
  rw [List.isSome_head?]
  refine List.ne_nil_of_mem (a := x.toId) (List.mem_map_of_mem (db.mem_scan.mpr ⟨hx, ?_⟩))
  have hmine : x.toId ∈ (db.scan fun e => e.kind = .member && e.status = .active && e.fromId = sender.id).map (·.toId) := by
    refine List.mem_map.mpr ⟨y, db.mem_scan.mpr ⟨hy, ?_⟩, by rw [hto', hroom, hto]⟩
    rw [hkind', hactive', hfrom', hnid]
    simp
  rw [hkind, hactive, hfrom, hid]
  simpa using hmine

theorem grantsOf_eq_nil {senderId : PrincipalId} (h : t.Ungranted agentId senderId) :
    Access.grantsOf db senderId agentId later = [] := by
  have hnone : liveEdges db (fun e => e.kind = .grant && e.fromId = senderId && e.toId = agentId) later = [] := by
    rw [List.eq_nil_iff_forall_not_mem]
    intro x hx
    obtain ⟨hedge, hlive, hcond⟩ := (Access.mem_liveEdges db).mp hx
    simp only [Bool.and_eq_true, decide_eq_true_eq] at hcond
    obtain ⟨row, hrow, rfl⟩ := List.mem_map.mp hedge
    obtain ⟨want, hwant, hsettled⟩ := exists_wanted hrow (.inr hlive.1)
    have hcase := Tables.desired_cases (mem_of_mem_selectWanted hwant)
    rw [← hsettled.fields, show row.fields.kind = .grant from hcond.1.1] at hcase
    obtain ⟨g, hg, hgrant⟩ := hcase
    obtain ⟨grantee, hgrantee, rfl⟩ := Option.map_eq_some_iff.mp hgrant
    have hfrom : grantee = senderId := (congrArg Fields.fromId hsettled.fields).symm.trans hcond.1.2
    have hto : g.agentId = agentId := (congrArg Fields.toId hsettled.fields).symm.trans hcond.2
    exact h g hg hto (hgrantee.trans (congrArg some hfrom))
  rw [Access.grantsOf, hnone]
  rfl

end BotCord.Admission
