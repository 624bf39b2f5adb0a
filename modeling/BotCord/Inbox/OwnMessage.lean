import BotCord.Attention.SameAnswer
import BotCord.Inbox.Batch

/-!
# A decision rests on its own message

The loop of a batch comes to what each message would get alone, since the cache only ever holds what would be resolved again. What one message would get reads the edges, rules and overrides of its sender, its room and the agent.
-/

namespace BotCord.Inbox

open Access (PrincipalId AccessEdge Graph Decision Reason Instant orConsult publicPrincipalId capabilityRank
  decideExecutionMany decideExecutionMany_cases bestGrants bestGrants_eq rank)
open Attention (Library RoomId EffectiveAttention isOwnerChat)
open Policy (isDirectRoomId)

section Loop

variable {lib : Library} {hub : Hub} {agent : Attention.Agent} {seen : View} {now : ℕ}
  {contexts : PrincipalId → Option AccessContext}

def Resolved (lib : Library) (hub : Hub) (agent : Attention.Agent) (now : ℕ)
    (cache : Option RoomId → Option EffectiveAttention) : Prop :=
  ∀ roomId base, cache roomId = some base → base = resolveEffectiveAttention lib hub agent now roomId

def verdictOf (lib : Library) (hub : Hub) (agent : Attention.Agent) (seen : View) (now : ℕ)
    (contexts : PrincipalId → Option AccessContext) (item : InboxItem) : Option Verdict :=
  let woken := (decideWake lib hub agent seen now (fun _ => none) item).1
  (decideProfile seen contexts item).map fun p =>
    { wake := woken.1, wakeReason := woken.2, profile := p.1, basis := p.2 }

theorem cached_resolved {cache : Option RoomId → Option EffectiveAttention} (h : Resolved lib hub agent now cache)
    (roomId : Option RoomId) :
    (cached lib hub agent now cache roomId).1 = resolveEffectiveAttention lib hub agent now roomId ∧
      Resolved lib hub agent now (cached lib hub agent now cache roomId).2 := by
  unfold cached
  cases hc : cache roomId with
  | some base => exact ⟨h roomId base hc, h⟩
  | none =>
    refine ⟨rfl, fun r base hbase => ?_⟩
    by_cases hr : r = roomId
    · subst hr
      simpa using hbase.symm
    · simp only [Function.update_of_ne hr] at hbase
      exact h r base hbase

theorem decideWake_resolved {cache : Option RoomId → Option EffectiveAttention} (h : Resolved lib hub agent now cache)
    (item : InboxItem) :
    (decideWake lib hub agent seen now cache item).1 = (decideWake lib hub agent seen now (fun _ => none) item).1 ∧
      Resolved lib hub agent now (decideWake lib hub agent seen now cache item).2 := by
  have hempty : Resolved lib hub agent now fun _ => none := fun _ _ hnone => by cases hnone
  unfold decideWake
  by_cases hdirect : (isOwnerChat item.room || isDirectRoomId item.room || item.room = "") = true
  · simp only [hdirect, if_true, true_and]
    exact h
  · simp only [hdirect, if_false, Bool.false_eq_true]
    rw [(cached_resolved h item.roomId).1, (cached_resolved hempty item.roomId).1]
    exact ⟨rfl, (cached_resolved h item.roomId).2⟩

theorem decideItem_resolved {p : Progress} (h : Resolved lib hub agent now p.cache) {item : InboxItem} {v : Verdict}
    (hv : verdictOf lib hub agent seen now contexts item = some v) :
    ∃ cache, Resolved lib hub agent now cache ∧ decideItem lib hub agent seen now contexts p item
      = some { cache := cache, out := Function.update p.out item.hubMsgId (some v) } := by
  obtain ⟨hwake, hcache⟩ := @decideWake_resolved lib hub agent seen now p.cache h item
  refine ⟨_, hcache, ?_⟩
  unfold verdictOf at hv
  unfold decideItem
  cases hprofile : decideProfile seen contexts item with
  | none => simp [hprofile] at hv
  | some pair =>
    simp only [hprofile, Option.map_some, Option.some.injEq] at hv
    simp only [hwake, hv]

theorem foldlM_decideItem {items : List InboxItem} (hdistinct : (items.map (·.hubMsgId)).Nodup)
    (hall : ∀ item ∈ items, ∃ v, verdictOf lib hub agent seen now contexts item = some v) {p : Progress}
    (h : Resolved lib hub agent now p.cache) :
    ∃ q, items.foldlM (decideItem lib hub agent seen now contexts) p = some q ∧
      (∀ id ∉ items.map (·.hubMsgId), q.out id = p.out id) ∧
      ∀ item ∈ items, q.out item.hubMsgId = verdictOf lib hub agent seen now contexts item := by
  induction items generalizing p with
  | nil => exact ⟨p, rfl, fun _ _ => rfl, fun item hitem => absurd hitem List.not_mem_nil⟩
  | cons item rest ih =>
    obtain ⟨hnew, hrest⟩ := List.nodup_cons.mp (by simpa only [List.map_cons] using hdistinct)
    obtain ⟨v, hv⟩ := hall item List.mem_cons_self
    obtain ⟨cache, hcache, hstep⟩ := decideItem_resolved h hv
    obtain ⟨q, hq, hother, hown⟩ := ih hrest (fun i hi => hall i (List.mem_cons_of_mem _ hi)) (p := ⟨cache, _⟩) hcache
    refine ⟨q, by rw [List.foldlM_cons, hstep]; exact hq, fun id hid => ?_, fun i hi => ?_⟩
    · simp only [List.map_cons, List.mem_cons, not_or] at hid
      exact (hother id hid.2).trans (Function.update_of_ne hid.1 _ _)
    · rcases List.mem_cons.mp hi with rfl | hi
      · exact (hother _ hnew).trans ((Function.update_self _ _ _).trans hv.symm)
      · exact hown i hi

end Loop

theorem Kept.soleOwners {graph : Graph} (h : Kept graph) (now : Instant) : graph.SoleOwners now :=
  fun x hx y hy hxlive hylive hto =>
    h.owned_once x hx y hy ⟨hxlive.1.1, hylive.1.1⟩ ⟨hxlive.2, hylive.2⟩ hto

theorem Kept.once {graph : Graph} (h : Kept graph) {x y : AccessEdge} (hx : x ∈ graph.edges) (hy : y ∈ graph.edges)
    (hactive : x.status = .active ∧ y.status = .active) (hkind : x.kind = y.kind) (hgrant : x.kind ≠ .grant)
    (hfrom : x.fromId = y.fromId) (hto : x.toId = y.toId) : x = y := by
  apply h.live_once x hx y hy hactive
  rw [liveKey, liveKey, hkind, hfrom, hto, h.unscoped x hx hgrant, h.unscoped y hy (hkind ▸ hgrant)]

/-- An edge that the decision on a message may rest on: the ownership of the agent and of the sender, what the sender has on the agent, the agent's place in the room of the message, and its offer. -/
def Concerns (agentId : PrincipalId) (item : InboxItem) (e : AccessEdge) : Prop :=
  match e.kind with
  | .ownership => e.toId = agentId ∨ e.toId = item.senderId
  | .grant | .connection => e.fromId = item.senderId ∧ e.toId = agentId
  | .member => e.fromId = agentId ∧ e.toId = item.room
  | .offer => e.toId = agentId
  | _ => False

/-- Two states of the tables that agree on the edges, rules and overrides of a message. All that belongs to other senders may differ. -/
structure SameFor (agentId : PrincipalId) (item : InboxItem) (hub hub' : Hub) : Prop where
  edges : ∀ e, Concerns agentId item e → (e ∈ hub.graph.edges ↔ e ∈ hub'.graph.edges)
  deps : ∀ e ∈ hub.graph.edges, Concerns agentId item e →
    ∀ d, d.edgeId = e.id → (d ∈ hub.graph.deps ↔ d ∈ hub'.graph.deps)
  targets : ∀ e ∈ hub.graph.edges, Concerns agentId item e → ∀ d ∈ hub.graph.deps, d.edgeId = e.id →
    ∀ t, t.id = d.dependsOnEdgeId → (t ∈ hub.graph.edges ↔ t ∈ hub'.graph.edges)
  parties : ∀ e ∈ hub.graph.edges, Concerns agentId item e → e.kind = .grant →
    ∀ id ∈ e.parties, (hub.graph.ActivePrincipal id ↔ hub'.graph.ActivePrincipal id)
  rules : ∀ r, r.agentId = agentId → r.senderId = item.senderId → (r ∈ hub.rules ↔ r ∈ hub'.rules)
  overrides : ∀ r, r.agentId = agentId → r.roomId = item.room → (r ∈ hub.overrides ↔ r ∈ hub'.overrides)

namespace SameFor

variable {agentId : PrincipalId} {item : InboxItem} {hub hub' : Hub} {now : Instant}

theorem symm (h : SameFor agentId item hub hub') : SameFor agentId item hub' hub where
  edges e hc := (h.edges e hc).symm
  deps e he hc d hd := (h.deps e ((h.edges e hc).mpr he) hc d hd).symm
  targets e he hc d hd hid t ht := by
    have hmem := (h.edges e hc).mpr he
    exact (h.targets e hmem hc d ((h.deps e hmem hc d hid).mpr hd) hid t ht).symm
  parties e he hc hkind id hid := (h.parties e ((h.edges e hc).mpr he) hc hkind id hid).symm
  rules r hagent hsender := (h.rules r hagent hsender).symm
  overrides r hagent hroom := (h.overrides r hagent hroom).symm

theorem live (h : SameFor agentId item hub hub') {e : AccessEdge} (hc : Concerns agentId item e)
    (he : e ∈ hub.graph.edges) (hlive : hub.graph.Live now e) : hub'.graph.Live now e := by
  refine ⟨hlive.1, hlive.2.1, fun d hd hid t ht htid => ?_⟩
  have hdep : d ∈ hub.graph.deps := (h.deps e he hc d hid).mpr hd
  exact hlive.2.2 d hdep hid t ((h.targets e he hc d hdep hid t htid).mpr ht) htid

theorem ownedBy (h : SameFor agentId item hub hub') {owned owner : PrincipalId}
    (howned : owned = agentId ∨ owned = item.senderId) (hown : hub.graph.OwnedBy now owned owner) :
    hub'.graph.OwnedBy now owned owner := by
  obtain ⟨e, he, hlive, hkind, hto, hfrom⟩ := hown
  have hc : Concerns agentId item e := by
    rw [Concerns, hkind]
    exact hto ▸ howned
  exact ⟨e, (h.edges e hc).mp he, h.live hc he hlive, hkind, hto, hfrom⟩

theorem sameOwner (h : SameFor agentId item hub hub') (hsame : hub.graph.SameOwner now item.senderId agentId) :
    hub'.graph.SameOwner now item.senderId agentId := by
  obtain ⟨owner, hown, hsender⟩ := hsame
  exact ⟨owner, h.ownedBy (.inl rfl) hown, hsender.imp_right (And.imp_right (h.ownedBy (.inr rfl)))⟩

theorem grants (h : SameFor agentId item hub hub') {g : AccessEdge}
    (hg : hub.graph.Grants now item.senderId agentId g) : hub'.graph.Grants now item.senderId agentId g := by
  obtain ⟨hmem, hlive, ⟨hkind, ⟨issuer, hissued, hne, howner⟩, hfrom, hto, hscope⟩, hsender, hagent⟩ := hg
  have hc : Concerns agentId item g := by
    rw [Concerns, hkind]
    exact ⟨hsender, hagent⟩
  have hactive : ∀ id ∈ [g.fromId, g.toId, g.scopeOrgId], id ≠ "" → hub.graph.ActivePrincipal id →
      hub'.graph.ActivePrincipal id := fun id hid hne hactive =>
    (h.parties g hmem hc hkind id (List.mem_filter.mpr ⟨hid, by simpa using hne⟩)).mp hactive
  refine ⟨(h.edges g hc).mp hmem, h.live hc hmem hlive, ⟨hkind, ⟨issuer, hissued, hne, ?_⟩, ⟨hfrom.1, ?_⟩, ⟨hto.1, ?_⟩, ?_⟩,
    hsender, hagent⟩
  · exact h.ownedBy (.inl hagent) howner
  · exact hactive _ (by simp) hfrom.1 hfrom.2
  · exact hactive _ (by simp) hto.1 hto.2
  · by_cases hempty : g.scopeOrgId = ""
    · exact .inl hempty
    · exact .inr (hactive _ (by simp) hempty (hscope.resolve_left hempty))

end SameFor

/-! ### What the selects find for a message -/

def Joins (graph : Graph) (kind : Access.EdgeKind) (fromId toId : PrincipalId) (e : AccessEdge) : Prop :=
  e ∈ graph.edges ∧ e.kind = kind ∧ e.status = .active ∧ e.fromId = fromId ∧ e.toId = toId
deriving Decidable

section Selects

variable {hub : Hub} {agentId sender : PrincipalId} {senders : Finset PrincipalId} {item : InboxItem} {e : AccessEdge}

/-- A dictionary filled from a select keeps the only active edge of a kind between two ends. -/
theorem last_eq_some_iff (db : Access.Session hub.graph) {c p : AccessEdge → Bool} {kind : Access.EdgeKind}
    {fromId toId : PrincipalId} (hgrant : kind ≠ .grant)
    (h : ∀ e, c e = true ∧ p e = true ↔ e.kind = kind ∧ e.status = .active ∧ e.fromId = fromId ∧ e.toId = toId) :
    (db.scan c).reverse.find? p = some e ↔ Joins hub.graph kind fromId toId e := by
  have hone : Select.Sole (fun x => p x) (db.scan c) := by
    intro x hx y hy hpx hpy
    rw [db.mem_scan] at hx hy
    obtain ⟨hkind, hactive, hfrom, hto⟩ := (h x).mp ⟨hx.2, hpx⟩
    obtain ⟨hkind', hactive', hfrom', hto'⟩ := (h y).mp ⟨hy.2, hpy⟩
    exact hub.kept.once hx.1 hy.1 ⟨hactive, hactive'⟩ (hkind.trans hkind'.symm) (hkind ▸ hgrant)
      (hfrom.trans hfrom'.symm) (hto.trans hto'.symm)
  rw [Select.find?_reverse_eq_some_iff_of_sole hone, db.mem_scan, and_assoc, h e, Joins]

theorem connCaps_eq_some_iff (db : Access.Session hub.graph) (hsender : sender ∈ senders) {cap : String} :
    connCaps hub db agentId senders sender = some cap ↔
      ∃ e, Joins hub.graph .connection sender agentId e ∧ orConsult e.capability = cap := by
  rw [connCaps, Option.map_eq_some_iff]
  refine exists_congr fun e => and_congr_left fun _ => last_eq_some_iff db (by decide) fun e => ?_
  simp only [Bool.and_eq_true, decide_eq_true_eq]
  constructor
  · rintro ⟨⟨⟨⟨hkind, hactive⟩, hto⟩, -⟩, hfrom⟩
    exact ⟨hkind, hactive, hfrom, hto⟩
  · rintro ⟨hkind, hactive, hfrom, hto⟩
    exact ⟨⟨⟨⟨hkind, hactive⟩, hto⟩, hfrom ▸ hsender⟩, hfrom⟩

theorem roomCaps_eq_some_iff (db : Access.Session hub.graph) {rooms : List RoomId} {room : RoomId} (hroom : room ∈ rooms)
    {cap : String} : roomCaps hub db agentId rooms room = some cap ↔
      ∃ e, Joins hub.graph .member agentId room e ∧ orConsult e.capability = cap := by
  rw [roomCaps, Option.map_eq_some_iff]
  refine exists_congr fun e => and_congr_left fun _ => last_eq_some_iff db (by decide) fun e => ?_
  simp only [Bool.and_eq_true, decide_eq_true_eq]
  constructor
  · rintro ⟨⟨⟨⟨hkind, hactive⟩, hfrom⟩, -⟩, hto⟩
    exact ⟨hkind, hactive, hfrom, hto⟩
  · rintro ⟨hkind, hactive, hfrom, hto⟩
    exact ⟨⟨⟨⟨hkind, hactive⟩, hfrom⟩, hto ▸ hroom⟩, hto⟩

theorem offerCap_eq_some_iff (db : Access.Session hub.graph) {cap : String} : offerCap hub db agentId = some cap ↔
    ∃ e, (Joins hub.graph .offer publicPrincipalId agentId e ∧ e.terms.direct = true) ∧ orConsult e.capability = cap := by
  have hmem : ∀ x ∈ db.scan fun e => e.kind = .offer && e.status = .active && e.fromId = publicPrincipalId &&
      e.toId = agentId, Joins hub.graph .offer publicPrincipalId agentId x := by
    intro x hx
    obtain ⟨hedge, hc⟩ := db.mem_scan.mp hx
    simp only [Bool.and_eq_true, decide_eq_true_eq] at hc
    exact ⟨hedge, hc.1.1.1, hc.1.1.2, hc.1.2, hc.2⟩
  have hone : Select.Sole (fun _ => True) (db.scan fun e => e.kind = .offer && e.status = .active &&
      e.fromId = publicPrincipalId && e.toId = agentId) := by
    intro x hx y hy _ _
    obtain ⟨hx, hkind, hactive, hfrom, hto⟩ := hmem x hx
    obtain ⟨hy, hkind', hactive', hfrom', hto'⟩ := hmem y hy
    exact hub.kept.once hx hy ⟨hactive, hactive'⟩ (hkind.trans hkind'.symm) (by rw [hkind]; decide)
      (hfrom.trans hfrom'.symm) (hto.trans hto'.symm)
  rw [offerCap, Option.map_eq_some_iff]
  refine exists_congr fun e => and_congr_left fun _ => ?_
  rw [Option.filter_eq_some_iff, Select.head?_eq_some_iff_of_sole hone]
  refine and_congr_left fun _ => ⟨hmem e, fun hjoins => ?_⟩
  rw [db.mem_scan]
  simp only [Bool.and_eq_true, decide_eq_true_eq]
  exact ⟨hjoins.1, ⟨⟨hjoins.2.1, hjoins.2.2.1⟩, hjoins.2.2.2.1⟩, hjoins.2.2.2.2⟩

theorem rulesOf_eq_some_iff (hsender : sender ∈ senders) {scope : RoomId} {rule : Attention.AgentSenderReplyRule} :
    rulesOf hub agentId senders sender scope = some rule ↔
      ({ agentId := agentId, senderId := sender, roomScope := scope, rule := rule } : ReplyRuleRow) ∈ hub.rules := by
  have hone : Select.Sole (fun r => (r.senderId = sender && r.roomScope = scope : Bool))
      (hub.rules.filter fun r => r.agentId = agentId && r.senderId ∈ senders) := by
    intro x hx y hy hkey hkey'
    simp only [List.mem_filter, Bool.and_eq_true, decide_eq_true_eq] at hx hy hkey hkey'
    refine List.inj_on_of_nodup_map hub.uq_rules hx.1 hy.1 ?_
    simp only [ReplyRuleRow.key, hx.2.1, hy.2.1, hkey.1, hkey'.1, hkey.2, hkey'.2]
  rw [rulesOf, Option.map_eq_some_iff]
  constructor
  · rintro ⟨r, hr, rfl⟩
    rw [Select.find?_reverse_eq_some_iff_of_sole hone] at hr
    simp only [List.mem_filter, Bool.and_eq_true, decide_eq_true_eq] at hr
    obtain ⟨⟨hmem, hagent, -⟩, hr, hscope⟩ := hr
    rw [← hagent, ← hr, ← hscope]
    exact hmem
  · intro hmem
    refine ⟨⟨agentId, sender, scope, rule⟩, (Select.find?_reverse_eq_some_iff_of_sole hone).mpr ?_, rfl⟩
    simp only [List.mem_filter, Bool.and_eq_true, decide_eq_true_eq]
    exact ⟨⟨hmem, trivial, hsender⟩, trivial, trivial⟩

theorem overrideOf_eq_some_iff {roomId : RoomId} {policy : Attention.AgentRoomPolicyOverride} :
    overrideOf hub agentId roomId = some policy ↔
      ({ agentId := agentId, roomId := roomId, policy := policy } : OverrideRow) ∈ hub.overrides := by
  have hone : Select.Sole (fun r => (r.agentId = agentId && r.roomId = roomId : Bool)) hub.overrides := by
    intro x hx y hy hkey hkey'
    simp only [Bool.and_eq_true, decide_eq_true_eq] at hkey hkey'
    refine List.inj_on_of_nodup_map hub.uq_overrides hx hy ?_
    simp only [OverrideRow.key, hkey.1, hkey'.1, hkey.2, hkey'.2]
  rw [overrideOf, Option.map_eq_some_iff]
  constructor
  · rintro ⟨r, hr, rfl⟩
    rw [Select.find?_eq_some_iff_of_sole hone] at hr
    simp only [Bool.and_eq_true, decide_eq_true_eq] at hr
    rw [← hr.2.1, ← hr.2.2]
    exact hr.1
  · intro hmem
    refine ⟨_, (Select.find?_eq_some_iff_of_sole hone).mpr ⟨hmem, ?_⟩, rfl⟩
    simp only [decide_true, Bool.and_self]

end Selects

/-! ### Two states that agree on a message -/

structure View.Alike (item : InboxItem) (seen seen' : View) : Prop where
  owner : (seen.paths item.senderId).any (·.reason = .ownership) = (seen'.paths item.senderId).any (·.reason = .ownership)
  grant : (seen.paths item.senderId).any (·.reason = .ownership) = false →
    ((seen.paths item.senderId).filter (·.reason = .grant)).map (grantProfile ·.capability)
      = ((seen'.paths item.senderId).filter (·.reason = .grant)).map (grantProfile ·.capability)
  room : item.room ≠ "" → seen.roomCaps item.room = seen'.roomCaps item.room
  connection : seen.connCaps item.senderId = seen'.connCaps item.senderId
  offer : seen.offerCap = seen'.offerCap
  rules : seen.rules item.senderId = seen'.rules item.senderId

theorem View.Alike.decideProfile_eq {item : InboxItem} {seen seen' : View} (h : seen.Alike item seen')
    {contexts contexts' : PrincipalId → Option AccessContext} (hctx : contexts item.senderId = contexts' item.senderId) :
    decideProfile seen contexts item = decideProfile seen' contexts' item := by
  have hoptions : seen.options item.senderId = seen'.options item.senderId := by
    rw [View.options, View.options, h.connection, h.offer]
  unfold decideProfile
  by_cases hchannel : item.ownerChannel = true
  · simp only [hchannel, if_true]
  · simp only [hchannel, if_false, Bool.false_eq_true, ← h.owner]
    by_cases howner : (seen.paths item.senderId).any (·.reason = .ownership) = true
    · simp only [howner, if_true]
    · have hgrant := h.grant (by simpa using howner)
      simp only [howner, if_false, Bool.false_eq_true]
      cases hpath : (seen.paths item.senderId).filter (·.reason = .grant) with
      | some decision =>
        cases hpath' : (seen'.paths item.senderId).filter (·.reason = .grant) with
        | some decision' =>
          rw [hpath, hpath', Option.map_some, Option.map_some, Option.some.injEq] at hgrant
          simp only [hgrant]
        | none => simp [hpath, hpath'] at hgrant
      | none =>
        cases hpath' : (seen'.paths item.senderId).filter (·.reason = .grant) with
        | some decision' => simp [hpath, hpath'] at hgrant
        | none =>
          rw [hctx, hoptions]
          by_cases hroom : item.room = ""
          · simp only [hroom, ne_eq, not_true_eq_false, decide_false, Bool.false_and, Bool.false_eq_true, if_false]
          · rw [h.room hroom]

theorem grantProfile_eq_of_rank {role role' : Option String} (h : capabilityRank role = capabilityRank role') :
    grantProfile role = grantProfile role' := by
  have htwo : ∀ r, r = some "collaborator" ↔ capabilityRank r = 2 := by
    intro r
    unfold capabilityRank
    split
    all_goals simp_all
  unfold grantProfile
  by_cases hrole : role = some "collaborator"
  · rw [if_pos hrole, if_pos ((htwo role').mpr (h ▸ (htwo role).mp hrole))]
  · rw [if_neg hrole, if_neg fun hrole' => hrole ((htwo role).mpr (h ▸ (htwo role').mp hrole'))]

section TwoStates

variable {hub hub' : Hub} {agentId : PrincipalId} {item : InboxItem} {now : ℕ}

/-- The batch finds an ownership path exactly for those who have the same owner as the agent. -/
theorem any_ownership_iff (db : Access.Session hub.graph) {senders : Finset PrincipalId} {sender : PrincipalId}
    (hsender : sender ∈ senders) : (decideExecutionMany db agentId senders now sender).any (·.reason = .ownership) = true ↔
      hub.graph.SameOwner now sender agentId := by
  obtain ⟨decision, hdecision, hcases⟩ := decideExecutionMany_cases (hub.kept.soleOwners now) db agentId hsender
  rw [hdecision, Option.any_some, decide_eq_true_eq]
  rcases hcases with ⟨hsame, -, hreason, -⟩ | ⟨hother, best, -, rfl⟩ | ⟨hother, -, rfl⟩
  · simp [hsame, hreason]
  · simp [hother]
  · simp [hother]

/-- Below ownership the batch finds the profile of the greatest role among the grants of the sender. -/
theorem grant_path (db : Access.Session hub.graph) {senders : Finset PrincipalId} {sender : PrincipalId}
    (hsender : sender ∈ senders) (hother : ¬ hub.graph.SameOwner now sender agentId) :
    ∃ rows : List AccessEdge, (∀ g, g ∈ rows ↔ sender.startsWith "hu_" ∧ hub.graph.Grants now sender agentId g) ∧
      ((decideExecutionMany db agentId senders now sender).filter (·.reason = .grant)).map (grantProfile ·.capability)
        = (rows.argmax rank).map (grantProfile ·.role) := by
  obtain ⟨rows, hbest, hrows⟩ := bestGrants_eq (hub.kept.soleOwners now) db agentId hsender
  obtain ⟨decision, hdecision, hcases⟩ := decideExecutionMany_cases (hub.kept.soleOwners now) db agentId hsender
  refine ⟨rows, hrows, ?_⟩
  rw [hdecision, ← hbest]
  rcases hcases with ⟨hsame, -⟩ | ⟨-, best, hmem, rfl⟩ | ⟨-, hnone, rfl⟩
  · exact absurd hsame hother
  · rw [Option.mem_def.mp hmem]
    simp
  · rw [hnone]
    simp

theorem exists_joins_iff (hsame : SameFor agentId item hub hub') {kind : Access.EdgeKind} {fromId toId : PrincipalId}
    (hconcerns : ∀ e : AccessEdge, e.kind = kind → e.fromId = fromId → e.toId = toId → Concerns agentId item e)
    {p : AccessEdge → Prop} : (∃ e, Joins hub.graph kind fromId toId e ∧ p e) ↔
      ∃ e, Joins hub'.graph kind fromId toId e ∧ p e := by
  refine exists_congr fun e => and_congr_left fun _ => and_congr_left fun hrest => hsame.edges e ?_
  exact hconcerns e hrest.1 hrest.2.2.1 hrest.2.2.2

theorem mem_roomsOf {items : List InboxItem} (hitem : item ∈ items) (hne : item.room ≠ "") : item.room ∈ roomsOf items := by
  refine List.mem_filter.mpr ⟨List.mem_filterMap.mpr ⟨item, hitem, ?_⟩, by simpa using hne⟩
  cases hid : item.roomId with
  | none => simp [InboxItem.room, hid] at hne
  | some room => simp [InboxItem.room, hid]

/-- Two states that agree on a message show it alike, whatever else the two batches hold. -/
theorem view_alike (hsame : SameFor agentId item hub hub') (db : Access.Session hub.graph) (db' : Access.Session hub'.graph)
    {items items' : List InboxItem} (hitem : item ∈ items) (hitem' : item ∈ items') :
    (view hub db agentId items now).Alike item (view hub' db' agentId items' now) := by
  have hs : item.senderId ∈ sendersOf items := List.mem_toFinset.mpr (List.mem_map_of_mem hitem)
  have hs' : item.senderId ∈ sendersOf items' := List.mem_toFinset.mpr (List.mem_map_of_mem hitem')
  have howner : hub.graph.SameOwner now item.senderId agentId ↔ hub'.graph.SameOwner now item.senderId agentId :=
    ⟨hsame.sameOwner, hsame.symm.sameOwner⟩
  constructor
  · apply Bool.eq_iff_iff.mpr
    exact (any_ownership_iff db hs).trans (howner.trans (any_ownership_iff db' hs').symm)
  · intro hnone
    have hother : ¬ hub.graph.SameOwner now item.senderId agentId := fun h => by
      have hany := (any_ownership_iff db hs).mpr h
      rw [show (decideExecutionMany db agentId (sendersOf items) now item.senderId).any (·.reason = .ownership) = false
        from hnone] at hany
      cases hany
    obtain ⟨rows, hrows, hpath⟩ := grant_path db hs hother
    obtain ⟨rows', hrows', hpath'⟩ := grant_path db' hs' fun h => hother (howner.mpr h)
    have hmem : ∀ g, g ∈ rows ↔ g ∈ rows' := fun g => by
      rw [hrows, hrows']
      exact and_congr_right fun _ => ⟨hsame.grants, hsame.symm.grants⟩
    refine (hpath.trans ?_).trans hpath'.symm
    cases hbest : rows.argmax rank with
    | some best =>
      cases hbest' : rows'.argmax rank with
      | some best' =>
        have hrank := Select.measure_argmax_eq hmem hbest hbest'
        rw [Option.map_some, Option.map_some, grantProfile_eq_of_rank hrank]
      | none =>
        rw [List.argmax_eq_none] at hbest'
        have hin := (hmem best).mp (List.argmax_mem hbest)
        rw [hbest'] at hin
        exact absurd hin List.not_mem_nil
    | none =>
      rw [List.argmax_eq_none] at hbest
      have hnil : rows' = [] := List.eq_nil_iff_forall_not_mem.mpr fun g hg => by
        have hin := (hmem g).mpr hg
        rw [hbest] at hin
        exact absurd hin List.not_mem_nil
      rw [hnil, List.argmax_nil]
  · intro hne
    apply Option.ext
    intro cap
    refine (roomCaps_eq_some_iff db (mem_roomsOf hitem hne)).trans (Iff.trans ?_ (roomCaps_eq_some_iff db' (mem_roomsOf hitem' hne)).symm)
    refine exists_joins_iff hsame fun e hkind hfrom hto => ?_
    rw [Concerns, hkind]
    exact ⟨hfrom, hto⟩
  · apply Option.ext
    intro cap
    refine (connCaps_eq_some_iff db hs).trans (Iff.trans ?_ (connCaps_eq_some_iff db' hs').symm)
    refine exists_joins_iff hsame fun e hkind hfrom hto => ?_
    rw [Concerns, hkind]
    exact ⟨hfrom, hto⟩
  · apply Option.ext
    intro cap
    refine (offerCap_eq_some_iff db).trans (Iff.trans ?_ (offerCap_eq_some_iff db').symm)
    simp only [and_assoc]
    refine exists_joins_iff hsame fun e hkind hfrom hto => ?_
    rw [Concerns, hkind]
    exact hto
  · funext scope
    apply Option.ext
    intro rule
    refine (rulesOf_eq_some_iff hs).trans (Iff.trans ?_ (rulesOf_eq_some_iff hs').symm)
    exact hsame.rules _ rfl rfl

theorem resolveEffectiveAttention_eq {lib : Library} {agent : Attention.Agent} (hsame : SameFor agent.agentId item hub hub') :
    resolveEffectiveAttention lib hub agent now item.roomId = resolveEffectiveAttention lib hub' agent now item.roomId := by
  have hoverride : (item.roomId.filter fun room => !isDirectRoomId room).bind (overrideOf hub agent.agentId)
      = (item.roomId.filter fun room => !isDirectRoomId room).bind (overrideOf hub' agent.agentId) := by
    cases hid : item.roomId with
    | none => rfl
    | some room =>
      refine Option.bind_congr fun r hr => Option.ext fun policy => ?_
      have hroom : r = item.room := by
        rw [InboxItem.room, hid, Option.getD_some]
        exact (Option.some.inj (Option.filter_eq_some_iff.mp hr).1).symm
      rw [overrideOf_eq_some_iff, overrideOf_eq_some_iff]
      exact hsame.overrides _ rfl hroom
  rw [resolveEffectiveAttention, resolveEffectiveAttention, hoverride]

theorem decideWake_eq {lib : Library} {agent : Attention.Agent} (hsame : SameFor agent.agentId item hub hub')
    {seen seen' : View} (halike : seen.Alike item seen') :
    (decideWake lib hub agent seen now (fun _ => none) item).1 = (decideWake lib hub' agent seen' now (fun _ => none) item).1 := by
  unfold decideWake
  by_cases hdirect : (isOwnerChat item.room || isDirectRoomId item.room || item.room = "") = true
  · simp only [hdirect, if_true]
  · simp only [hdirect, if_false, Bool.false_eq_true, cached, Attention.attentionFor, halike.rules,
      resolveEffectiveAttention_eq hsame]
    rfl

end TwoStates

/-! ### What a message may get -/

section Verdicts

variable {hub : Hub} {agentId : PrincipalId} {item : InboxItem} {items : List InboxItem} {now : ℕ} {e : AccessEdge}

theorem Kept.orConsult_mem (h : Kept hub.graph) (he : e ∈ hub.graph.edges) :
    orConsult e.capability = "consult" ∨ orConsult e.capability = "full" := by
  have hcap := h.capability e he
  simp only [List.mem_cons, List.not_mem_nil, or_false] at hcap
  rcases hcap with hcap | hcap | hcap
  all_goals rw [hcap]
  · exact .inl (by decide)
  · exact .inl (by decide)
  · exact .inr (by decide)

theorem Kept.ranked (h : Kept hub.graph) (he : e ∈ hub.graph.edges) :
    ∃ rank, rankOf (orConsult e.capability) = some rank := by
  rcases h.orConsult_mem he with hcap | hcap
  · exact ⟨1, by rw [hcap]; rfl⟩
  · exact ⟨3, by rw [hcap]; rfl⟩

/-- The option that is found is one of those there were, and one is found where all have a rank. -/
theorem strongest_spec {options : List (String × Basis)} (hranked : ∀ o ∈ options, ∃ rank, rankOf o.1 = some rank) :
    ∃ o, strongest options = some o ∧ (o = ("consult", .noPath) ∨ o ∈ options) := by
  unfold strongest
  by_cases hempty : options.isEmpty = true
  · exact ⟨_, by rw [if_pos hempty], .inl rfl⟩
  · rw [if_neg hempty]
    have hranks : ∃ ranked : List (ℕ × String × Basis),
        (options.mapM fun o => (rankOf o.1).map fun rank => (rank, o)) = some ranked ∧ ranked.map (·.2) = options := by
      clear hempty
      induction options with
      | nil => exact ⟨[], rfl, rfl⟩
      | cons o rest ih =>
        obtain ⟨rank, hrank⟩ := hranked o List.mem_cons_self
        obtain ⟨ranked, hmap, hsnd⟩ := ih fun o ho => hranked o (List.mem_cons_of_mem _ ho)
        refine ⟨(rank, o) :: ranked, ?_, by rw [List.map_cons, hsnd]⟩
        rw [List.mapM_cons, hrank, hmap]
        rfl
    obtain ⟨ranked, hmap, hsnd⟩ := hranks
    rw [hmap]
    cases hbest : ranked.argmax (·.1) with
    | none =>
      rw [List.argmax_eq_none] at hbest
      rw [← hsnd, hbest] at hempty
      exact absurd rfl hempty
    | some best =>
      refine ⟨best.2, by simp [hbest], .inr ?_⟩
      rw [← hsnd]
      exact List.mem_map_of_mem (List.argmax_mem hbest)

/-- An edge of the agent's own whose capability is full: its place in the room of the message, the connection of the sender, or its offer in direct messages. -/
def FullRelation (graph : Graph) (agentId : PrincipalId) (item : InboxItem) : Prop :=
  ∃ e ∈ graph.edges, e.status = .active ∧ e.capability = some "full" ∧
    (e.kind = .member ∧ e.fromId = agentId ∧ e.toId = item.room ∧ item.room ≠ "" ∧ ¬ isDirectRoomId item.room ∨
      e.kind = .connection ∧ e.fromId = item.senderId ∧ e.toId = agentId ∨
      e.kind = .offer ∧ e.fromId = publicPrincipalId ∧ e.toId = agentId ∧ e.terms.direct = true)
deriving Decidable

theorem capability_full {graph : Graph} (h : Kept graph) (he : e ∈ graph.edges)
    (hfull : orConsult e.capability = "full") : e.capability = some "full" := by
  have hcap := h.capability e he
  simp only [List.mem_cons, List.not_mem_nil, or_false] at hcap
  rcases hcap with hcap | hcap | hcap
  · rw [hcap] at hfull
    exact absurd hfull (by decide)
  · rw [hcap] at hfull
    exact absurd hfull (by decide)
  · exact hcap

/-- Every option of a direct message is the capability of the sender's connection or of the agent's offer. -/
theorem mem_options (db : Access.Session hub.graph) (hs : item.senderId ∈ sendersOf items) {o : String × Basis}
    (ho : o ∈ (view hub db agentId items now).options item.senderId) : ∃ e ∈ hub.graph.edges,
      orConsult e.capability = o.1 ∧ e.status = .active ∧
        (e.kind = .connection ∧ e.fromId = item.senderId ∧ e.toId = agentId ∨
          e.kind = .offer ∧ e.fromId = publicPrincipalId ∧ e.toId = agentId ∧ e.terms.direct = true) := by
  simp only [View.options, List.mem_filterMap, List.mem_cons, List.not_mem_nil, or_false] at ho
  obtain ⟨pair, hpair, hsome⟩ := ho
  rw [Option.map_eq_some_iff] at hsome
  obtain ⟨cap, hcap, rfl⟩ := hsome
  have hfound := (Option.filter_eq_some_iff.mp hcap).1
  rcases hpair with rfl | rfl
  · obtain ⟨e, ⟨he, hkind, hactive, hfrom, hto⟩, hcap⟩ := (connCaps_eq_some_iff db hs).mp hfound
    exact ⟨e, he, hcap, hactive, .inl ⟨hkind, hfrom, hto⟩⟩
  · obtain ⟨e, ⟨⟨he, hkind, hactive, hfrom, hto⟩, hdirect⟩, hcap⟩ := (offerCap_eq_some_iff db).mp hfound
    exact ⟨e, he, hcap, hactive, .inr ⟨hkind, hfrom, hto, hdirect⟩⟩

/-- Every message of a batch gets a profile, and a full one only by the owner's channel, by ownership or by a relation of the agent that is itself full. -/
theorem decideProfile_spec (db : Access.Session hub.graph) (contexts : PrincipalId → Option AccessContext) (hitem : item ∈ items) :
    ∃ p, decideProfile (view hub db agentId items now) contexts item = some p ∧
      (p.1 = "full" → item.ownerChannel = true ∨ hub.graph.SameOwner now item.senderId agentId ∨
        FullRelation hub.graph agentId item) := by
  have hs : item.senderId ∈ sendersOf items := List.mem_toFinset.mpr (List.mem_map_of_mem hitem)
  unfold decideProfile
  by_cases hchannel : item.ownerChannel = true
  · exact ⟨_, by simp only [hchannel, if_true]; rfl, fun _ => .inl hchannel⟩
  · simp only [hchannel, if_false, Bool.false_eq_true, false_or]
    by_cases howner : ((view hub db agentId items now).paths item.senderId).any (·.reason = .ownership) = true
    · exact ⟨_, by simp only [howner, if_true]; rfl, fun _ => .inl ((any_ownership_iff db hs).mp howner)⟩
    · simp only [howner, if_false, Bool.false_eq_true]
      cases ((view hub db agentId items now).paths item.senderId).filter (·.reason = .grant) with
      | some decision =>
        refine ⟨_, rfl, fun hfull => ?_⟩
        simp only [grantProfile] at hfull
        split at hfull
        · exact absurd hfull (by decide)
        · exact absurd hfull (by decide)
      | none =>
        by_cases hinactive : ((contexts item.senderId).any (!·.active) && (isDirectRoomId item.room || item.room = "")) = true
        · exact ⟨_, by simp only [hinactive, if_true]; rfl, fun hfull => absurd hfull (by decide)⟩
        · simp only [hinactive, if_false, Bool.false_eq_true]
          by_cases hgroup : (decide (item.room ≠ "") && !isDirectRoomId item.room) = true
          · refine ⟨_, by simp only [hgroup, if_true]; rfl, fun hfull => .inr ?_⟩
            simp only [Bool.and_eq_true, decide_eq_true_eq, Bool.not_eq_true'] at hgroup
            cases hcap : (view hub db agentId items now).roomCaps item.room with
            | none =>
              rw [hcap] at hfull
              exact absurd hfull (by decide)
            | some cap =>
              rw [hcap, Option.getD_some] at hfull
              have hroom : item.room ∈ roomsOf items := mem_roomsOf hitem hgroup.1
              obtain ⟨e, ⟨he, hkind, hactive, hfrom, hto⟩, hcap⟩ := (roomCaps_eq_some_iff db hroom).mp hcap
              exact ⟨e, he, hactive, capability_full hub.kept he (hcap.trans hfull),
                .inl ⟨hkind, hfrom, hto, hgroup.1, by simp [hgroup.2]⟩⟩
          · simp only [hgroup, if_false, Bool.false_eq_true]
            have hranked : ∀ o ∈ (view hub db agentId items now).options item.senderId, ∃ rank, rankOf o.1 = some rank := by
              intro o ho
              obtain ⟨e, he, hcap, -⟩ := mem_options db hs ho
              rw [← hcap]
              exact hub.kept.ranked he
            obtain ⟨o, hstrongest, ho⟩ := strongest_spec hranked
            refine ⟨o, hstrongest, fun hfull => .inr ?_⟩
            rcases ho with rfl | ho
            · exact absurd hfull (by decide)
            · obtain ⟨e, he, hcap, hactive, hrelation⟩ := mem_options db hs ho
              exact ⟨e, he, hactive, capability_full hub.kept he (hcap.trans hfull), .inr hrelation⟩

theorem decideInbox_verdict (lib : Library) (db : Access.Session hub.graph) (agent : Attention.Agent) (batch : Batch)
    (contexts : PrincipalId → Option AccessContext) {item : InboxItem} (hitem : item ∈ batch.items) :
    (decideInbox lib hub db agent batch contexts now).bind (· item.hubMsgId)
      = verdictOf lib hub agent (view hub db agent.agentId batch.items now) now contexts item := by
  have hnonempty : batch.items.isEmpty ≠ true := by
    rw [ne_eq, List.isEmpty_iff]
    exact List.ne_nil_of_mem hitem
  have hall : ∀ i ∈ batch.items, ∃ v,
      verdictOf lib hub agent (view hub db agent.agentId batch.items now) now contexts i = some v := by
    intro i hi
    obtain ⟨p, hp, -⟩ := @decideProfile_spec hub agent.agentId i _ now db contexts hi
    exact ⟨_, by rw [verdictOf, hp]; rfl⟩
  obtain ⟨q, hq, -, hown⟩ := foldlM_decideItem batch.distinct hall (p := {}) fun _ _ hnone => by cases hnone
  rw [decideInbox, if_neg hnonempty]
  simp only [hq, Option.map_some, Option.bind_some]
  exact hown item hitem

end Verdicts

/-- A message that two batches share gets the same verdict in both, in any two states that agree on the edges, rules and overrides of the message and whatever else the batches hold; and a full profile comes from the owner's channel, from ownership, or from a relation of the agent that is itself full. -/
theorem decideInbox_own_message (lib : Library) (agent : Attention.Agent) (now : ℕ) {hub hub' : Hub}
    (db : Access.Session hub.graph) (db' : Access.Session hub'.graph) (batch batch' : Batch)
    (contexts contexts' : PrincipalId → Option AccessContext) {item : InboxItem} (hitem : item ∈ batch.items)
    (hitem' : item ∈ batch'.items) (hsame : SameFor agent.agentId item hub hub')
    (hctx : contexts item.senderId = contexts' item.senderId) :
    ∃ verdict, (decideInbox lib hub db agent batch contexts now).bind (· item.hubMsgId) = some verdict ∧
      (decideInbox lib hub' db' agent batch' contexts' now).bind (· item.hubMsgId) = some verdict ∧
      (verdict.profile = "full" → item.ownerChannel = true ∨ hub.graph.SameOwner now item.senderId agent.agentId ∨
        FullRelation hub.graph agent.agentId item) := by
  have halike := @view_alike hub hub' agent.agentId item now hsame db db' _ _ hitem hitem'
  obtain ⟨p, hp, hfull⟩ := @decideProfile_spec hub agent.agentId item _ now db contexts hitem
  have hp' : decideProfile (view hub' db' agent.agentId batch'.items now) contexts' item = some p :=
    (halike.decideProfile_eq hctx).symm.trans hp
  rw [decideInbox_verdict lib db agent batch contexts hitem, decideInbox_verdict lib db' agent batch' contexts' hitem']
  refine ⟨_, by rw [verdictOf, hp]; rfl, ?_, hfull⟩
  rw [verdictOf, hp', decideWake_eq hsame halike]
  rfl

/-- An agent with an owner and one friend, whose connection the owner made full. -/
def befriended : Hub where
  graph := {
    edges := [
      { id := 1, kind := .ownership, fromId := "hu_o", toId := "ag_1" },
      { id := 2, kind := .connection, fromId := "hu_f", toId := "ag_1", capability := some "full" }]
    principals := [{ id := "hu_o" }, { id := "hu_f" }, { id := "ag_1" }] }

def popular : Hub where
  graph := {
    edges := befriended.graph.edges ++ [{ id := 3, kind := .connection, fromId := "hu_g", toId := "ag_1" }]
    edges_distinct := by decide
    principals := befriended.graph.principals ++ [{ id := "hu_g" }] }
  rules := [{ agentId := "ag_1", senderId := "hu_g", rule := { attentionMode := .mentionOnly } }]

def fromFriend : InboxItem := { hubMsgId := "h1", senderId := "hu_f", roomId := some "rm_dm_1", text := "hi" }

def fromOther : InboxItem := { hubMsgId := "h2", senderId := "hu_g", roomId := some "rm_1", text := "hello" }

/-- The connection of a friend gives a full profile, though no ownership stands behind it. -/
theorem full_by_connection :
    (((decideInbox Attention.latin befriended befriended.graph.inOrder { agentId := "ag_1" } { items := [fromFriend] }
      (fun _ => none) 100).bind (· "h1")).any fun v => v.profile = "full" && v.basis = .connection) = true ∧
    fromFriend.ownerChannel = false ∧ ¬ befriended.graph.SameOwner 100 "hu_f" "ag_1" := by
  refine ⟨by decide +kernel, by decide +kernel, ?_⟩
  rintro ⟨owner, ⟨e, he, -, hkind, -, rfl⟩, hsender⟩
  have howner : e.fromId = "hu_o" := by
    rcases List.mem_cons.mp he with rfl | he
    · rfl
    · rw [List.mem_singleton.mp he] at hkind
      cases hkind
  rw [howner] at hsender
  rcases hsender with hsender | ⟨hagent, -⟩
  · exact absurd hsender (by decide)
  · exact absurd hagent (by decide +kernel)

theorem decideInbox_own_message_friend :
    ∃ verdict, (decideInbox Attention.latin befriended befriended.graph.inOrder { agentId := "ag_1" }
        { items := [fromFriend] } (fun _ => none) 100).bind (· "h1") = some verdict ∧
      (decideInbox Attention.latin popular popular.graph.backwards { agentId := "ag_1" }
        { items := [fromOther, fromFriend] } (fun s => if s = "hu_g" then some ⟨false⟩ else none) 100).bind (· "h1")
          = some verdict := by
  have hsame : SameFor "ag_1" fromFriend befriended popular := by
    constructor
    · intro e hc
      refine ⟨List.mem_append_left _, fun he => ?_⟩
      rcases List.mem_append.mp he with he | he
      · exact he
      · rw [List.mem_singleton.mp he] at hc
        exact absurd hc.1 (by decide)
    · exact fun _ _ _ _ _ => Iff.rfl
    · exact fun _ _ _ d hd => absurd hd List.not_mem_nil
    · intro e he hc hkind
      rcases List.mem_cons.mp he with rfl | he
      · cases hkind
      · rw [List.mem_singleton.mp he] at hkind
        cases hkind
    · intro r _ hsender
      refine ⟨fun hr => absurd hr List.not_mem_nil, fun hr => ?_⟩
      rw [List.mem_singleton.mp hr] at hsender
      exact absurd hsender (by decide)
    · exact fun _ _ _ => Iff.rfl
  obtain ⟨verdict, hfirst, hsecond, -⟩ := decideInbox_own_message Attention.latin { agentId := "ag_1" } 100
    befriended.graph.inOrder popular.graph.backwards { items := [fromFriend] } { items := [fromOther, fromFriend] }
    (fun _ => none) (fun s => if s = "hu_g" then some ⟨false⟩ else none) (List.mem_singleton_self _)
    (List.mem_cons_of_mem _ (List.mem_singleton_self _)) hsame (by decide)
  exact ⟨verdict, hfirst, hsecond⟩

end BotCord.Inbox
