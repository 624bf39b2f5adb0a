import BotCord.Inbox.OwnMessage
import BotCord.Spaces.Latest

/-!
# What a room shows and what its messages get

`room_agent_access` of `hub/services/team_access.py` tells a member of an organization how far its messages make each agent of a room act and which of them wake it. `decide_inbox` decides the same when a message arrives, from other rows. The display names are left out.
-/

namespace BotCord.Inbox

open Access (PrincipalId AccessEdge Graph orConsult decideExecutionMany)
open Attention (Library RoomId EffectiveAttention isOwnerChat attentionFor effectiveAttentionFrom)
open Policy (isDirectRoomId AttentionMode)
open Spaces (UserId SpaceId AgentId Tables Dated Projection AgentAccessGrant GrantRole LatestRules executionRole dated)

/-- A room of an organization. Direct conversations have ids of their own, and no owner chat is among them. -/
structure OrgRoom where
  roomId : RoomId
  spaceId : SpaceId
  dm : Bool := false
  organizationWide : Bool := false
  members : List PrincipalId
  direct_iff : isDirectRoomId roomId = dm := by decide +kernel
  not_owner_chat : isOwnerChat roomId = false := by decide +kernel
  not_empty : roomId ≠ "" := by decide

/-- The organizations with the settings of their agents, whose tables have just been projected. -/
structure Workplace where
  dated : Dated
  time : Spaces.Instant
  settings : AgentId → Attention.Agent
  settings_id : ∀ id, (settings id).agentId = id
  rules : List ReplyRuleRow := []
  overrides : List OverrideRow := []
  kept : Kept (dated.hub.graph.sync dated.hub.tables time).graph
  uq_rules : (rules.map ReplyRuleRow.key).Nodup := by exact List.nodup_nil
  uq_overrides : (overrides.map OverrideRow.key).Nodup := by exact List.nodup_nil

namespace Workplace

variable (w : Workplace)

abbrev tables : Tables := w.dated.hub.tables

abbrev projection : Projection := w.dated.hub.graph.sync w.tables w.time

/-- What a poll reads of it. -/
def inbox : Hub where
  graph := w.projection.graph
  rules := w.rules
  overrides := w.overrides
  kept := w.kept
  uq_rules := w.uq_rules
  uq_overrides := w.uq_overrides

/-- `_load_access_contexts`, of the senders that the agent is not bound to. -/
def accessContexts (db : Access.Session w.projection.graph) (agentId : AgentId) (now : ℕ) (sender : PrincipalId) :
    Option AccessContext :=
  if sender.startsWith "hu_" then
    (w.tables.users.rows.find? (·.humanId = sender)).bind fun u =>
      if (w.tables.agents.get? agentId).any (·.userId = some u.id) then none
      else (w.dated.latestGrantForPair agentId u.id).map fun g => { active := Spaces.grantIsValid w.projection db g.id now }
  else none

/-- `_org_agents`: the active agents of a space, each with the user who sponsors it. -/
def orgAgents (spaceId : SpaceId) : List (AgentId × UserId) :=
  w.tables.agentMemberships.rows.filterMap fun m =>
    if m.spaceId = spaceId ∧ m.status = .active ∧ (w.tables.agents.get? m.agentId).any (·.status = .active) then
      (w.tables.userMemberships.get? m.sponsorUserMembershipId).map fun s => (m.agentId, s.userId)
    else none

end Workplace

inductive ViewBasis
  | owner | grant | none | room

structure AgentAccess where
  agentId : AgentId
  myCapability : String
  basis : ViewBasis
  replyMode : AttentionMode
  keywords : List String

def roleProfile (role : GrantRole) : String := if role = .collaborator then "collaborator" else "consult"

section View

variable (w : Workplace) (db : Access.Session w.projection.graph) (lib : Library)

/-- The sponsor of the agent in the space, or the user it is bound to. -/
def ViewOwner (spaceId : SpaceId) (userId : UserId) (a : Spaces.Agent) : Prop :=
  ((w.orgAgents spaceId).reverse.find? (·.1 = a.agentId)).map (·.2) = some userId ∨ a.userId = some userId
deriving Decidable

/-- The first active member edge of each of some agents to the room. -/
def memberCap (agentIds : List AgentId) (roomId : RoomId) (agentId : AgentId) : Option String :=
  ((db.scan fun e => e.kind = .member && e.status = .active && e.fromId ∈ agentIds && e.toId = roomId).find?
    (·.fromId = agentId)).bind (·.capability)

/-- The body of the loop of `room_agent_access`. -/
def agentAccess (room : OrgRoom) (userId : UserId) (me : PrincipalId) (agents : List Spaces.Agent) (now : ℕ)
    (a : Spaces.Agent) : AgentAccess :=
  let ids := agents.map (·.agentId)
  let asked := (agents.filter fun a => ¬ ViewOwner w room.spaceId userId a).map (·.agentId)
  let grant := w.dated.activeGrantsForGrantee w.projection db asked userId now a.agentId
  let access : String × ViewBasis :=
    if ViewOwner w room.spaceId userId a then ("full", .owner)
    else
      match grant.filter fun g => !room.dm || g.spaceId = room.spaceId with
      | some g => (roleProfile g.role, .grant)
      | none =>
        -- A room alone gives no access to an agent in a direct conversation.
        if room.dm then ("deny", .none)
        else (orConsult (memberCap w db ids room.roomId a.agentId), .room)
  let base := effectiveAttentionFrom lib (w.settings a.agentId) room.roomId (overrideOf w.inbox a.agentId room.roomId) now
  let eff := attentionFor lib (rulesOf w.inbox a.agentId {me}) room.roomId me base
  { agentId := a.agentId, myCapability := access.1, basis := access.2, replyMode := eff.mode, keywords := eff.keywords }

/-- What a user is shown of the agents of a room; none if the request is refused. -/
def roomAgentAccess (spaceId : SpaceId) (room : OrgRoom) (userId : UserId) (now : ℕ) : Option (List AgentAccess) :=
  if Spaces.returns (Spaces.requireMembership spaceId userId) w.tables ∧ room.spaceId = spaceId then
    match w.tables.humanOf userId with
    | none => none
    | some me =>
      if me ∈ room.members ∨ room.organizationWide then
        let agentIds := room.members.filter (·.startsWith "ag_")
        let agents := w.tables.agents.rows.filter (·.agentId ∈ agentIds)
        some (agents.map (agentAccess w db lib room userId me agents now))
      else none
  else none

end View

/-- The attention that decides whether a message wakes the agent. -/
def appliedAttention (lib : Library) (hub : Hub) (agent : Attention.Agent) (seen : View) (now : ℕ) (item : InboxItem) :
    EffectiveAttention :=
  attentionFor lib seen.rules item.room item.senderId (resolveEffectiveAttention lib hub agent now item.roomId)

def Workplace.attentionTo (w : Workplace) (db : Access.Session w.projection.graph) (lib : Library) (agentId : AgentId)
    (items : List InboxItem) (now : ℕ) (item : InboxItem) : EffectiveAttention :=
  appliedAttention lib w.inbox (w.settings agentId) (view w.inbox db agentId items now) now item

theorem decideWake_applied {lib : Library} {hub : Hub} {agent : Attention.Agent} {seen : View} {now : ℕ}
    {item : InboxItem} (hgroup : (isOwnerChat item.room || isDirectRoomId item.room || item.room = "") = false) :
    (decideWake lib hub agent seen now (fun _ => none) item).1
      = Attention.shouldWake lib (appliedAttention lib hub agent seen now item)
          (item.mentioned || Attention.scanMention lib item.text agent.agentId agent.displayName) item.text item.senderId now := by
  unfold decideWake
  rw [if_neg (by rw [hgroup]; decide)]
  rfl

/-- The row shows the attention that a message meets, and that attention decided: a direct message always wakes. -/
structure Shows (row : AgentAccess) (room : OrgRoom) (verdict : Verdict) (eff : EffectiveAttention)
    (wakes : EffectiveAttention → Bool × String) : Prop where
  replyMode : row.replyMode = eff.mode
  keywords : row.keywords = eff.keywords
  wake : (verdict.wake, verdict.wakeReason) = if room.dm then (true, "direct") else wakes eff

/-- A message of a user in a room of an organization. -/
structure SentIn (room : OrgRoom) (human : PrincipalId) (item : InboxItem) : Prop where
  sender : item.senderId = human
  roomId : item.roomId = some room.roomId
  source : item.sourceType.any (· ∈ ownerSourceTypes) = false

theorem SentIn.room_eq {room : OrgRoom} {human : PrincipalId} {item : InboxItem} (h : SentIn room human item) :
    item.room = room.roomId := by
  rw [InboxItem.room, h.roomId, Option.getD_some]

theorem SentIn.not_ownerChannel {room : OrgRoom} {human : PrincipalId} {item : InboxItem} (h : SentIn room human item) :
    item.ownerChannel = false := by
  rw [InboxItem.ownerChannel, h.room_eq, room.not_owner_chat, h.source]
  rfl

section Branches

variable {seen : View} {contexts : PrincipalId → Option AccessContext} {item : InboxItem}

theorem decideProfile_owner (hchannel : item.ownerChannel = false)
    (howner : (seen.paths item.senderId).any (·.reason = .ownership) = true) :
    decideProfile seen contexts item = some ("full", .owner) := by
  simp only [decideProfile, hchannel, Bool.false_eq_true, if_false, howner, if_true]

theorem decideProfile_grant (hchannel : item.ownerChannel = false)
    (hother : (seen.paths item.senderId).any (·.reason = .ownership) = false) {decision : Access.Decision}
    (hgrant : (seen.paths item.senderId).filter (·.reason = .grant) = some decision) :
    decideProfile seen contexts item = some (grantProfile decision.capability, .grant) := by
  simp only [decideProfile, hchannel, Bool.false_eq_true, if_false, hother, hgrant]

variable (hchannel : item.ownerChannel = false)
  (hother : (seen.paths item.senderId).any (·.reason = .ownership) = false)
  (hnone : (seen.paths item.senderId).filter (·.reason = .grant) = none)
include hchannel hother hnone

theorem decideProfile_inactive (hinactive : contexts item.senderId = some { active := false })
    (hdirect : isDirectRoomId item.room = true) : decideProfile seen contexts item = some ("deny", .grantInactive) := by
  simp [decideProfile, hchannel, hother, hnone, hinactive, hdirect]

theorem decideProfile_room (hgroup : isDirectRoomId item.room = false) (hne : item.room ≠ "") :
    decideProfile seen contexts item = some ((seen.roomCaps item.room).getD "consult", .room) := by
  simp [decideProfile, hchannel, hother, hnone, hgroup, hne]

end Branches

section Agree

variable {w : Workplace} {now : ℕ} {u : Spaces.User} {a : Spaces.Agent} {room : OrgRoom} {item : InboxItem}
  {items : List InboxItem} {lib : Library}

/-- The two answers take the same user for the owner of the agent: the one that sponsors it in the space or that it is bound to, and the owner of an active agent in the graph. -/
def OwnersAgree (w : Workplace) (spaceId : SpaceId) (userId : UserId) (a : Spaces.Agent) : Prop :=
  ViewOwner w spaceId userId a ↔ a.status = .active ∧ w.tables.OwnedBy a userId

/-- The state in which the two answers agree for a user and an agent in a room: on the owner, and, for anyone else, on the grant that counts; in a direct conversation there has been a grant, and the latest one is of the organization if it is alive. -/
structure Aligned (w : Workplace) (room : OrgRoom) (userId : UserId) (a : Spaces.Agent) (now : ℕ) : Prop where
  owner : OwnersAgree w room.spaceId userId a
  latest : ¬ ViewOwner w room.spaceId userId a → LatestRules w.dated a.agentId userId now
  direct : ¬ ViewOwner w room.spaceId userId a → room.dm = true → ∃ g ∈ w.dated.latestGrantForPair a.agentId userId,
    Spaces.Alive w.tables g now → g.spaceId = room.spaceId

theorem mirrors (ht : Spaces.Consistent w.tables) : Spaces.Mirrors w.tables w.projection w.time :=
  Spaces.mirrors_sync (ht.projectable w.time) w.dated.hub.graph

theorem sameOwner_human_iff (ht : Spaces.Consistent w.tables) (hnamed : Spaces.Named w.tables)
    (hu : u ∈ w.tables.users) (ha : a ∈ w.tables.agents) :
    w.projection.graph.SameOwner now u.humanId a.agentId ↔ a.status = .active ∧ w.tables.OwnedBy a u.id := by
  have howned : w.projection.graph.OwnedBy now a.agentId u.humanId ↔ a.status = .active ∧ w.tables.OwnedBy a u.id := by
    rw [(mirrors ht).ownedBy_iff ht]
    constructor
    · rintro ⟨b, hb, hid, hactive, v, hv, hown, hhuman⟩
      obtain rfl := Keyed.eq_of_key hb ha hid
      obtain rfl := ht.human_unique v hv u hu hhuman
      exact ⟨hactive, hown⟩
    · rintro ⟨hactive, hown⟩
      exact ⟨a, ha, rfl, hactive, u, hu, hown, rfl⟩
  rw [← howned]
  constructor
  · rintro ⟨owner, hown, rfl | ⟨hagent, -⟩⟩
    · exact hown
    · exact absurd hagent (hnamed.not_agent hu)
  · intro hown
    exact ⟨_, hown, .inl rfl⟩

/-- The capability that a room gives is that of the only active member edge of the agent. -/
theorem memberCap_eq (db db' : Access.Session w.projection.graph) {ids : List AgentId} (hid : a.agentId ∈ ids)
    {rooms : List RoomId} (hroom : room.roomId ∈ rooms) :
    orConsult (memberCap w db ids room.roomId a.agentId)
      = (roomCaps w.inbox db' a.agentId rooms room.roomId).getD "consult" := by
  have hfirst : ∀ e, (db.scan fun e => e.kind = .member && e.status = .active && e.fromId ∈ ids &&
      e.toId = room.roomId).find? (·.fromId = a.agentId) = some e ↔
        Joins w.projection.graph .member a.agentId room.roomId e := by
    have hc : ∀ e : AccessEdge, (e ∈ w.projection.graph.edges ∧ (e.kind = .member && e.status = .active &&
        e.fromId ∈ ids && e.toId = room.roomId) = true) ∧ decide (e.fromId = a.agentId) = true ↔
          Joins w.projection.graph .member a.agentId room.roomId e := by
      intro e
      simp only [Bool.and_eq_true, decide_eq_true_eq, Joins]
      constructor
      · rintro ⟨⟨he, ⟨⟨hkind, hactive⟩, -⟩, hto⟩, hfrom⟩
        exact ⟨he, hkind, hactive, hfrom, hto⟩
      · rintro ⟨he, hkind, hactive, hfrom, hto⟩
        exact ⟨⟨he, ⟨⟨hkind, hactive⟩, hfrom ▸ hid⟩, hto⟩, hfrom⟩
    intro e
    rw [Select.find?_eq_some_iff_of_sole, db.mem_scan, hc]
    intro x hx y hy hpx hpy
    obtain ⟨hx, hkind, hactive, hfrom, hto⟩ := (hc x).mp ⟨db.mem_scan.mp hx, hpx⟩
    obtain ⟨hy, hkind', hactive', hfrom', hto'⟩ := (hc y).mp ⟨db.mem_scan.mp hy, hpy⟩
    exact w.kept.once hx hy ⟨hactive, hactive'⟩ (hkind.trans hkind'.symm) (by rw [hkind]; decide)
      (hfrom.trans hfrom'.symm) (hto.trans hto'.symm)
  have hlast := fun cap => @roomCaps_eq_some_iff w.inbox a.agentId db' rooms room.roomId hroom cap
  unfold memberCap
  cases hfind : (db.scan fun e => e.kind = .member && e.status = .active && e.fromId ∈ ids &&
      e.toId = room.roomId).find? (·.fromId = a.agentId) with
  | some e =>
    rw [(hlast (orConsult e.capability)).mpr ⟨e, (hfirst e).mp hfind, rfl⟩]
    rfl
  | none =>
    have hnone : roomCaps w.inbox db' a.agentId rooms room.roomId = none := by
      rw [Option.eq_none_iff_forall_ne_some]
      intro cap hcap
      obtain ⟨e, hjoins, -⟩ := (hlast cap).mp hcap
      rw [(hfirst e).mpr hjoins] at hfind
      cases hfind
    rw [hnone]
    rfl

theorem grantProfile_text (role : GrantRole) : grantProfile (some role.text) = roleProfile role := by
  cases role <;> decide

theorem accessContexts_inactive (ht : Spaces.Consistent w.tables) (hnamed : Spaces.Named w.tables) (hu : u ∈ w.tables.users)
    (ha : a ∈ w.tables.agents) (hbound : a.userId ≠ some u.id) (db : Access.Session w.projection.graph)
    {g : AgentAccessGrant} (hlatest : g ∈ w.dated.latestGrantForPair a.agentId u.id)
    (hinvalid : Spaces.grantIsValid w.projection db g.id now = false) :
    w.accessContexts db a.agentId now u.humanId = some { active := false } := by
  have hfind : w.tables.users.rows.find? (·.humanId = u.humanId) = some u := by
    rw [Select.find?_eq_some_iff_of_sole]
    · exact ⟨hu, by simp⟩
    · intro x hx y hy hxu hyu
      simp only [decide_eq_true_eq] at hxu hyu
      exact ht.human_unique x hx y hy (hxu.trans hyu.symm)
  have hget : w.tables.agents.get? a.agentId = some a := Keyed.get?_eq_some_iff.mpr ⟨ha, rfl⟩
  rw [Workplace.accessContexts, if_pos (hnamed.human u hu), hfind, Option.bind_some, hget, Option.any_some,
    if_neg (by simpa using hbound), Option.mem_def.mp hlatest, Option.map_some, hinvalid]

/-- Where the two are aligned, the capability that is shown is the profile that a message gets. -/
theorem myCapability_eq (ht : Spaces.Consistent w.tables) (hnamed : Spaces.Named w.tables) (hle : w.time ≤ now)
    (hu : u ∈ w.tables.users) (ha : a ∈ w.tables.agents) (haligned : Aligned w room u.id a now)
    (hsent : SentIn room u.humanId item) (hitem : item ∈ items) {agents : List Spaces.Agent} (hmember : a ∈ agents)
    (shown decided asked : Access.Session w.projection.graph) :
    (decideProfile (view w.inbox decided a.agentId items now) (w.accessContexts asked a.agentId now) item).map (·.1)
      = some (agentAccess w shown lib room u.id u.humanId agents now a).myCapability := by
  have hmirrors := mirrors ht
  have hs : u.humanId ∈ sendersOf items := hsent.sender ▸ List.mem_toFinset.mpr (List.mem_map_of_mem hitem)
  have howner := (@any_ownership_iff w.inbox a.agentId now decided _ _ hs).trans
    (sameOwner_human_iff ht hnamed hu ha)
  have hchannel := hsent.not_ownerChannel
  by_cases hview : ViewOwner w room.spaceId u.id a
  · have hpath : ((view w.inbox decided a.agentId items now).paths item.senderId).any (·.reason = .ownership) = true :=
      hsent.sender ▸ howner.mpr (haligned.owner.mp hview)
    rw [decideProfile_owner hchannel hpath, agentAccess]
    simp only [hview, if_true, Option.map_some]
  · have hpath : ((view w.inbox decided a.agentId items now).paths item.senderId).any (·.reason = .ownership) = false :=
      hsent.sender ▸ Bool.eq_false_iff.mpr (mt howner.mp (mt haligned.owner.mpr hview))
    have hrole : (((view w.inbox decided a.agentId items now).paths item.senderId).filter (·.reason = .grant)).map
        (·.capability) = (w.dated.activeGrantForPair w.projection asked a.agentId u.id now).map fun g => some g.role.text :=
      hsent.sender ▸ (Spaces.executionRole_eq_iff hmirrors ht hnamed hle hu decided asked hs).mpr (haligned.latest hview)
    have hbatch : w.dated.activeGrantsForGrantee w.projection shown
        ((agents.filter fun a => ¬ ViewOwner w room.spaceId u.id a).map (·.agentId)) u.id now a.agentId
          = w.dated.activeGrantForPair w.projection asked a.agentId u.id now :=
      Spaces.activeGrantsForGrantee_eq hmirrors shown asked
        (List.mem_map_of_mem (List.mem_filter.mpr ⟨hmember, by simpa using hview⟩))
    have hactive := fun g => @Spaces.activeGrantForPair_eq_some w.dated w.time now a.agentId w.projection u.id g hmirrors ht
      hle asked
    rw [agentAccess]
    simp only [hview, if_false, hbatch]
    cases hgrant : w.dated.activeGrantForPair w.projection asked a.agentId u.id now with
    | some g =>
      obtain ⟨hlatest, halive⟩ := (hactive g).mp hgrant
      rw [hgrant, Option.map_some, Option.map_eq_some_iff] at hrole
      obtain ⟨decision, hdecision, hcapability⟩ := hrole
      have hhere : (!room.dm || decide (g.spaceId = room.spaceId)) = true := by
        cases hdm : room.dm with
        | false => rfl
        | true =>
          obtain ⟨latest, hsame, hspace⟩ := haligned.direct hview hdm
          obtain rfl := Option.some.inj (hlatest.symm.trans hsame)
          simpa using hspace halive
      rw [decideProfile_grant hchannel hpath hdecision, Option.filter_some, if_pos hhere]
      simp only [Option.map_some, hcapability, grantProfile_text]
    | none =>
      rw [hgrant, Option.map_none, Option.map_eq_none_iff] at hrole
      simp only [Option.filter_none]
      cases hdm : room.dm with
      | true =>
        obtain ⟨latest, hlatest, -⟩ := haligned.direct hview hdm
        have hinvalid : Spaces.grantIsValid w.projection asked latest.id now = false := by
          rw [Spaces.Dated.activeGrantForPair, Option.mem_def.mp hlatest, Option.filter_some] at hgrant
          by_contra hvalid
          rw [if_pos (by simpa using hvalid)] at hgrant
          cases hgrant
        have hctx := accessContexts_inactive ht hnamed hu ha (fun hbound => hview (.inr hbound)) asked hlatest hinvalid
        rw [decideProfile_inactive hchannel hpath hrole (hsent.sender ▸ hctx)
          (by rw [hsent.room_eq, room.direct_iff, hdm])]
        rfl
      | false =>
        have hne : item.room ≠ "" := hsent.room_eq ▸ room.not_empty
        have hroom : room.roomId ∈ roomsOf items := hsent.room_eq ▸ mem_roomsOf hitem hne
        have hcap := memberCap_eq shown decided
          (List.mem_map_of_mem (f := fun a : Spaces.Agent => a.agentId) hmember) hroom
        rw [decideProfile_room hchannel hpath hrole (by rw [hsent.room_eq, room.direct_iff, hdm]) hne, hsent.room_eq]
        simp only [Option.map_some, Bool.false_eq_true, if_false, hcap]
        rfl

/-- The attention that is shown is the one that decides whether a message wakes the agent. -/
theorem shown_attention (shown decided : Access.Session w.projection.graph) (hsent : SentIn room u.humanId item)
    (hitem : item ∈ items) {agents : List Spaces.Agent} :
    (agentAccess w shown lib room u.id u.humanId agents now a).replyMode
        = (appliedAttention lib w.inbox (w.settings a.agentId) (view w.inbox decided a.agentId items now) now item).mode ∧
      (agentAccess w shown lib room u.id u.humanId agents now a).keywords
        = (appliedAttention lib w.inbox (w.settings a.agentId) (view w.inbox decided a.agentId items now) now item).keywords := by
  have hs : u.humanId ∈ sendersOf items := hsent.sender ▸ List.mem_toFinset.mpr (List.mem_map_of_mem hitem)
  have hrules : (view w.inbox decided a.agentId items now).rules u.humanId = rulesOf w.inbox a.agentId {u.humanId} u.humanId := by
    funext scope
    apply Option.ext
    intro rule
    exact (rulesOf_eq_some_iff hs).trans (rulesOf_eq_some_iff (Finset.mem_singleton_self _)).symm
  have hbase : resolveEffectiveAttention lib w.inbox (w.settings a.agentId) now (some room.roomId)
      = effectiveAttentionFrom lib (w.settings a.agentId) room.roomId (overrideOf w.inbox a.agentId room.roomId) now := by
    unfold resolveEffectiveAttention
    by_cases hdirect : isDirectRoomId room.roomId = true
    · simp [effectiveAttentionFrom, hdirect]
    · rw [Option.filter_some, if_pos (by simpa using hdirect), Option.bind_some, w.settings_id]
      rfl
  have hsame : appliedAttention lib w.inbox (w.settings a.agentId) (view w.inbox decided a.agentId items now) now item
      = attentionFor lib (rulesOf w.inbox a.agentId {u.humanId}) room.roomId u.humanId
          (effectiveAttentionFrom lib (w.settings a.agentId) room.roomId (overrideOf w.inbox a.agentId room.roomId) now) := by
    rw [appliedAttention, hsent.sender, hsent.room_eq, hsent.roomId, hbase]
    unfold attentionFor
    rw [hrules]
  rw [hsame]
  exact ⟨rfl, rfl⟩

end Agree

/-- In every state that the calls can reach, once it is projected: the batch of decisions reports a grant of a person, and its role, just as the active grant of the pair does, exactly if the latest grant of the pair rules. What a room shows a person of the attention of an agent is what its messages there meet, and where the two are aligned the capability shown is the profile that they get. -/
theorem views_agree {w : Workplace} (hreach : dated.Reachable Dated.Initial w.dated) {now : ℕ} (hle : w.time ≤ now)
    {u : Spaces.User} (hu : u ∈ w.tables.users) (shown decided asked : Access.Session w.projection.graph) (lib : Library) :
    (∀ agentId, ∀ senders : Finset PrincipalId, u.humanId ∈ senders →
      (executionRole decided agentId senders now u.humanId
          = (w.dated.activeGrantForPair w.projection asked agentId u.id now).map (fun g => some g.role.text) ↔
        LatestRules w.dated agentId u.id now)) ∧
    ∀ spaceId room rows, roomAgentAccess w shown lib spaceId room u.id now = some rows → ∀ row ∈ rows,
      ∀ (batch : Batch) (item : InboxItem), item ∈ batch.items → SentIn room u.humanId item →
        ∃ verdict, (decideInbox lib w.inbox decided (w.settings row.agentId) batch
            (w.accessContexts asked row.agentId now) now).bind (· item.hubMsgId) = some verdict ∧
          Shows row room verdict (w.attentionTo decided lib row.agentId batch.items now item) (fun eff =>
            Attention.shouldWake lib eff (item.mentioned || Attention.scanMention lib item.text row.agentId
              (w.settings row.agentId).displayName) item.text item.senderId now) ∧
          ∀ a ∈ w.tables.agents, a.agentId = row.agentId → Aligned w room u.id a now →
            row.myCapability = verdict.profile := by
  have ht := (Spaces.Hub.Sound.reachable (Dated.reachable_hub hreach)).consistent
  have hnamed := Spaces.Named.reachable (Dated.reachable_hub hreach)
  refine ⟨fun agentId senders hasked => Spaces.executionRole_eq_iff (mirrors ht) ht hnamed hle hu decided asked hasked, ?_⟩
  intro spaceId room rows hrows row hrow batch item hitem hsent
  have hhuman : w.tables.humanOf u.id = some u.humanId := Spaces.Tables.humanOf_eq_some.mpr ⟨u, hu, rfl, rfl⟩
  unfold roomAgentAccess at hrows
  split at hrows
  · rw [hhuman] at hrows
    simp only at hrows
    split at hrows
    · obtain rfl := Option.some.inj hrows
      obtain ⟨a, hmember, rfl⟩ := List.mem_map.mp hrow
      have ha : a ∈ w.tables.agents := (List.mem_filter.mp hmember).1
      obtain ⟨p, hp, -⟩ := @decideProfile_spec w.inbox a.agentId _ _ now decided
        (w.accessContexts asked a.agentId now) hitem
      have hverdict := @decideInbox_verdict w.inbox now lib decided (w.settings a.agentId) batch
        (w.accessContexts asked a.agentId now) item hitem
      rw [w.settings_id, verdictOf, hp, Option.map_some] at hverdict
      obtain ⟨hmode, hkeywords⟩ := shown_attention (a := a) shown decided hsent hitem
      refine ⟨_, hverdict, ⟨hmode, hkeywords, ?_⟩, fun b hb hid haligned => ?_⟩
      · cases hdm : room.dm with
        | true =>
          have hdirect : isDirectRoomId item.room = true := by rw [hsent.room_eq, room.direct_iff, hdm]
          simp [decideWake, hdirect]
        | false =>
          rw [decideWake_applied]
          · rw [w.settings_id]
            rfl
          · rw [hsent.room_eq, room.not_owner_chat, room.direct_iff, hdm]
            simpa using room.not_empty
      · obtain rfl := Keyed.eq_of_key hb ha hid
        have hcapability := @myCapability_eq w now u b room item batch.items lib ht hnamed hle hu hb haligned hsent hitem _
          hmember shown decided asked
        rw [hp, Option.map_some, Option.some.injEq] at hcapability
        exact hcapability.symm
    · cases hrows
  · cases hrows

def organizationIds (spaceId organizationId membershipId : ℕ) (hex : String) : Spaces.OrganizationIds where
  spaceId := spaceId
  organizationId := organizationId
  membershipId := membershipId
  hex := hex
  personal := Spaces.admission.personal

/-- A user founds two organizations, brings its agent and another user into both, and lets that user collaborate with the agent in the first. -/
def sharing : List Spaces.Action :=
  [.call 1 (.signUp 1 "1"), .call 1 (.signUp 2 "2"), .call 1 (.registerAgent "x" "clm_1"),
    .call 2 (.claimAgent 1 "ag_x" ""),
    .call 3 (.createOrganization 1 "acme" (organizationIds 12 1 22 "1")),
    .call 3 (.createOrganization 1 "beta" (organizationIds 13 2 26 "2")),
    .call 4 (.inviteUser 12 1 2 23), .call 4 (.acceptInvitation 12 2),
    .call 5 (.inviteUser 13 1 2 27), .call 5 (.acceptInvitation 13 2),
    .call 6 (.requestAgentAdmission 12 1 "ag_x" Spaces.admission), .call 6 (.approveAgent 12 1 "ag_x"),
    .call 7 (.requestAgentAdmission 13 1 "ag_x" { Spaces.admission with membershipId := 33 }),
    .call 7 (.approveAgent 13 1 "ag_x"),
    .call 8 (.createGrant 12 1 { agentId := "ag_x", granteeUserId := 2, role := "collaborator" } 1)]

def sharingTwice : List Spaces.Action :=
  sharing ++ [.call 9 (.createGrant 13 1 { agentId := "ag_x", granteeUserId := 2, role := "consultant" } 2)]

def after (actions : List Spaces.Action) : Dated := (dated.run { hub := Spaces.Hub.start 0 } actions).getD { hub := {} }

theorem run_after {actions : List Spaces.Action} (h : (dated.run { hub := Spaces.Hub.start 0 } actions).isSome = true) :
    dated.run { hub := Spaces.Hub.start 0 } actions = some (after actions) := by
  obtain ⟨s, hs⟩ := Option.isSome_iff_exists.mp h
  rw [after, hs, Option.getD_some]

def office (actions : List Spaces.Action)
    (kept : Kept ((after actions).hub.graph.sync (after actions).hub.tables 10).graph) : Workplace where
  dated := after actions
  time := 10
  settings id := { agentId := id }
  settings_id _ := rfl
  kept := kept

def shared : Workplace := office sharing (by decide +kernel)

def sharedTwice : Workplace := office sharingTwice (by decide +kernel)

def lobby : OrgRoom where
  roomId := "rm_1"
  spaceId := 12
  members := ["hu_1", "hu_2", "ag_x"]

def question : InboxItem := { hubMsgId := "h1", senderId := "hu_2", roomId := some "rm_1", text := "hi" }

/-- With an earlier and greater grant in another organization the two answers on the same person differ. -/
theorem older_grant_decides :
    executionRole sharedTwice.projection.graph.inOrder "ag_x" {"hu_2"} 10 "hu_2" = some (some "collaborator") ∧
    (sharedTwice.dated.activeGrantForPair sharedTwice.projection sharedTwice.projection.graph.inOrder "ag_x" 2 10).map
      (fun g => some g.role.text) = some (some "consultant") ∧
    (roomAgentAccess sharedTwice sharedTwice.projection.graph.inOrder Attention.latin 12 lobby 2 10).map
      (fun rows => rows.map (·.myCapability)) = some ["consult"] ∧
    ((decideInbox Attention.latin sharedTwice.inbox sharedTwice.projection.graph.inOrder (sharedTwice.settings "ag_x")
      { items := [question] } (sharedTwice.accessContexts sharedTwice.projection.graph.inOrder "ag_x" 10) 10).bind
        (· "h1")).map (·.profile) = some "collaborator" := by
  refine ⟨by decide +kernel, by decide +kernel, by decide +kernel, by decide +kernel⟩

def ownAgent : Spaces.Agent := { agentId := "ag_x", userId := some 1, claimedAt := some 2, claimCode := "clm_1" }

/-- With one grant, the answers agree. -/
theorem views_agree_shared : ∃ row verdict,
    roomAgentAccess shared shared.projection.graph.inOrder Attention.latin 12 lobby 2 10 = some [row] ∧
    (decideInbox Attention.latin shared.inbox shared.projection.graph.backwards (shared.settings row.agentId)
      { items := [question] } (shared.accessContexts shared.projection.graph.inOrder row.agentId 10) 10).bind
        (· "h1") = some verdict ∧
    row.myCapability = verdict.profile ∧
    executionRole shared.projection.graph.backwards "ag_x" {"hu_2"} 10 "hu_2"
      = (shared.dated.activeGrantForPair shared.projection shared.projection.graph.inOrder "ag_x" 2 10).map
          fun g => some g.role.text := by
  have hreach : dated.Reachable Dated.Initial shared.dated := by
    have hrun : (dated.run { hub := Spaces.Hub.start 0 } sharing).isSome = true := by decide +kernel
    exact ⟨{ hub := Spaces.Hub.start 0 }, sharing, ⟨0, rfl⟩, run_after hrun⟩
  have huser : ({ id := 2, humanId := "hu_2" } : Spaces.User) ∈ shared.tables.users := by decide +kernel
  have hagent : ownAgent ∈ shared.tables.agents := by decide +kernel
  have hstranger : ¬ ViewOwner shared 12 2 ownAgent := by decide +kernel
  have hunowned : ¬ (∃ o ∈ shared.tables.ownerships, o.agentId = "ag_x" ∧ o.owner = .user 2) := by decide +kernel
  have hlatest : LatestRules shared.dated "ag_x" 2 10 := by decide +kernel
  have haligned : Aligned shared lobby 2 ownAgent 10 := by
    refine ⟨⟨fun hview => absurd hview hstranger, ?_⟩, fun _ => hlatest, fun _ hdm => absurd hdm (by decide)⟩
    rintro ⟨-, hrow | ⟨-, hbound⟩⟩
    · exact absurd hrow hunowned
    · exact absurd hbound (by decide)
  obtain ⟨hroles, hrooms⟩ := views_agree hreach (by decide : shared.time ≤ 10) huser shared.projection.graph.inOrder
    shared.projection.graph.backwards shared.projection.graph.inOrder Attention.latin
  have hshown : (roomAgentAccess shared shared.projection.graph.inOrder Attention.latin 12 lobby 2 10).any
      (fun rows => rows.map (·.agentId) = ["ag_x"]) = true := by decide +kernel
  obtain ⟨rows, hrows, hids⟩ := (Option.any_eq_true _ _).mp hshown
  obtain ⟨row, rest, hcons, hid, hrest⟩ := List.map_eq_cons_iff.mp (of_decide_eq_true hids)
  obtain rfl := List.map_eq_nil_iff.mp hrest
  subst hcons
  have hsent : SentIn lobby "hu_2" question := ⟨rfl, rfl, rfl⟩
  obtain ⟨verdict, hverdict, -, hcapability⟩ := hrooms 12 lobby _ hrows row List.mem_cons_self
    { items := [question] } question List.mem_cons_self hsent
  exact ⟨row, verdict, hrows, hverdict, hcapability ownAgent hagent hid.symm haligned,
    (hroles "ag_x" {"hu_2"} (Finset.mem_singleton_self _)).mpr hlatest⟩

end BotCord.Inbox
