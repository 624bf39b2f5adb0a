import BotCord.Foundation.Run
import BotCord.Spaces.Invariant

/-!
# The hub

Calls reach the tables one after another, each in a transaction of its own at a time not before the last one's. A transaction that returns projects the tables it leaves before it commits; one that fails leaves tables and graph as they were. The edges of the other kinds come and go beside the projection, and a loop in the background projects again from time to time.
-/

namespace BotCord.Spaces

open Tables Transaction

inductive Operation
  | createOrganization (userId : UserId) (slug : String) (ids : OrganizationIds)
  | inviteUser (spaceId : SpaceId) (actorId targetId : UserId) (id : MembershipId)
  | acceptInvitation (spaceId : SpaceId) (userId : UserId)
  | removeUser (spaceId : SpaceId) (actorId targetId : UserId)
  | createLink (spaceId : SpaceId) (actorId : UserId) (expiresInDays maxUses : Option ℕ) (id : LinkId) (code : String)
  | revokeLink (spaceId : SpaceId) (actorId : UserId) (linkId : LinkId)
  | acceptLink (code : String) (userId : UserId) (id : MembershipId)
  | registerPersonalAgent (userId : UserId) (agentId : AgentId) (ids : AdmissionIds)
  | requestAgentAdmission (spaceId : SpaceId) (userId : UserId) (agentId : AgentId) (ids : AdmissionIds)
  | approveAgent (spaceId : SpaceId) (actorId : UserId) (agentId : AgentId)
  | removeAgent (spaceId : SpaceId) (actorId : UserId) (agentId : AgentId)
  | createGrant (spaceId : SpaceId) (actorId : UserId) (form : GrantForm) (id : GrantId)
  | revokeGrant (spaceId : SpaceId) (actorId : UserId) (grantId : GrantId)
  | claimAgent (userId : UserId) (agentId : AgentId) (claimCode : String)
  | claimResolve (userId : UserId) (claimCode : String)
  | unbindAgentFromUser (agentId : AgentId) (userId : UserId) (checks : UnbindChecks) (claimCode : String)
  | signUp (id : UserId) (hex : String)
  | setUser (id : UserId) (active : Bool) (bannedAt : Option Instant)
  | registerAgent (hex : String) (claimCode : String)
  | setAgentStatus (agentId : AgentId) (status : AgentStatus)
  | setSpaceStatus (id : SpaceId) (status : SpaceStatus)

def perform (now : Instant) : Operation → Tx Unit
  | .createOrganization userId slug ids => createOrganization userId slug ids
  | .inviteUser spaceId actorId targetId id => void (inviteUser spaceId actorId targetId id)
  | .acceptInvitation spaceId userId => void (acceptInvitation spaceId userId)
  | .removeUser spaceId actorId targetId => removeUser spaceId actorId targetId
  | .createLink spaceId actorId expiresInDays maxUses id code =>
    createLink spaceId actorId expiresInDays maxUses id code now
  | .revokeLink spaceId actorId linkId => revokeLink spaceId actorId linkId now
  | .acceptLink code userId id => void (acceptLink code userId id now)
  | .registerPersonalAgent userId agentId ids => registerPersonalAgent userId agentId ids
  | .requestAgentAdmission spaceId userId agentId ids => void (requestAgentAdmission spaceId userId agentId ids)
  | .approveAgent spaceId actorId agentId => void (approveAgent spaceId actorId agentId)
  | .removeAgent spaceId actorId agentId => removeAgent spaceId actorId agentId
  | .createGrant spaceId actorId form id => void (createGrant spaceId actorId form id now)
  | .revokeGrant spaceId actorId grantId => void (revokeGrant spaceId actorId grantId now)
  | .claimAgent userId agentId claimCode => claimAgent userId agentId claimCode now
  | .claimResolve userId claimCode => claimResolve userId claimCode now
  | .unbindAgentFromUser agentId userId checks claimCode => unbindAgentFromUser agentId userId checks claimCode
  | .signUp id hex => signUp id hex
  | .setUser id active bannedAt => setUser id active bannedAt
  | .registerAgent hex claimCode => registerAgent hex claimCode
  | .setAgentStatus agentId status => setAgentStatus agentId status
  | .setSpaceStatus id status => setSpaceStatus id status

structure Hub where
  tables : Tables := {}
  graph : Projection := {}
  clock : Instant := 0

inductive Action
  | call (now : Instant) (op : Operation)
  /-- The background loop projects the tables. -/
  | project (now : Instant)
  /-- An edge of another kind is written. -/
  | relate (key : String) (fields : Fields) (version : Option ℕ) (capability : Option String)

namespace Hub

def call (h : Hub) (now : Instant) (op : Operation) : Hub :=
  match atomically (perform now op) h.tables with
  | (.ok (), tables) => { tables, graph := h.graph.sync tables now, clock := now }
  | (.error _, _) => { h with clock := now }

def project (h : Hub) (now : Instant) : Hub := { h with graph := h.graph.sync h.tables now, clock := now }

def relate (h : Hub) (key : String) (fields : Fields) (version : Option ℕ) (capability : Option String) : Hub :=
  { h with graph := h.graph.upsert { source := .other key, fields, version, capability } }

/-- A hub without any rows, after its first projection. -/
def start (clock : Instant) : Hub := { graph := ({} : Projection).sync {} clock, clock }

def Initial (h : Hub) : Prop := ∃ clock, h = start clock

end Hub

def hub : System Hub Action where
  step
    | h, .call now op => if h.clock ≤ now then some (h.call now op) else none
    | h, .project now => if h.clock ≤ now then some (h.project now) else none
    | h, .relate key fields version capability =>
      if WriteThrough fields.kind then none else some (h.relate key fields version capability)

theorem perform_changes {now : Instant} {op : Operation} {σ τ : Session Tables} {u : Unit}
    (hop : ∀ agentId userId checks claimCode, op ≠ .unbindAgentFromUser agentId userId checks claimCode)
    (h : exec (perform now op) σ = (.ok u, τ)) : Changes now σ.view τ.view := by
  cases op with
  | createOrganization => exact createOrganization_changes h
  | inviteUser =>
    obtain ⟨_, h⟩ := exec_void_ok.mp h
    exact inviteUser_changes h
  | acceptInvitation =>
    obtain ⟨_, h⟩ := exec_void_ok.mp h
    exact acceptInvitation_changes h
  | removeUser => exact removeUser_changes h
  | createLink => exact createLink_changes h
  | revokeLink => exact revokeLink_changes h
  | acceptLink =>
    obtain ⟨_, h⟩ := exec_void_ok.mp h
    exact acceptLink_changes h
  | registerPersonalAgent => exact (registerPersonalAgent_ok now h).1
  | requestAgentAdmission =>
    obtain ⟨_, h⟩ := exec_void_ok.mp h
    exact requestAgentAdmission_changes h
  | approveAgent =>
    obtain ⟨_, h⟩ := exec_void_ok.mp h
    exact approveAgent_changes h
  | removeAgent => exact removeAgent_changes h
  | createGrant =>
    obtain ⟨_, h⟩ := exec_void_ok.mp h
    exact createGrant_changes h
  | revokeGrant =>
    obtain ⟨_, h⟩ := exec_void_ok.mp h
    exact revokeGrant_changes h
  | claimAgent => exact claimAgent_changes h
  | claimResolve => exact claimResolve_changes h
  | unbindAgentFromUser agentId userId checks claimCode => exact absurd rfl (hop agentId userId checks claimCode)
  | signUp => exact signUp_changes h
  | setUser => exact setUser_changes h
  | registerAgent => exact registerAgent_changes h
  | setAgentStatus => exact setAgentStatus_changes h
  | setSpaceStatus => exact setSpaceStatus_changes h

theorem atomically_perform {now : Instant} {op : Operation} {t t' : Tables} {u : Unit}
    (h : atomically (perform now op) t = (.ok u, t')) : Changes now t t' ∨
      ∃ agentId userId checks claimCode, op = .unbindAgentFromUser agentId userId checks claimCode ∧
        Unbinds t agentId userId checks ∧ t' = t.unbind agentId claimCode := by
  obtain ⟨_, hexec⟩ := atomically_ok.mp h
  by_cases hop : ∃ agentId userId checks claimCode, op = .unbindAgentFromUser agentId userId checks claimCode
  · obtain ⟨agentId, userId, checks, claimCode, rfl⟩ := hop
    obtain ⟨hunbinds, htables⟩ := unbindAgentFromUser_ok hexec
    exact .inr ⟨agentId, userId, checks, claimCode, rfl, hunbinds, htables⟩
  · push Not at hop
    exact .inl (perform_changes hop hexec)

inductive Stepped (h : Hub) : Action → Hub → Prop
  | committed {now op tables} (hclock : h.clock ≤ now) (hcall : atomically (perform now op) h.tables = (.ok (), tables)) :
      Stepped h (.call now op) { tables, graph := h.graph.sync tables now, clock := now }
  | failed {now op} (hclock : h.clock ≤ now) : Stepped h (.call now op) { h with clock := now }
  | projected {now} (hclock : h.clock ≤ now) : Stepped h (.project now) (h.project now)
  | related {key fields version capability} (hkind : ¬ WriteThrough fields.kind) :
      Stepped h (.relate key fields version capability) (h.relate key fields version capability)

variable {now : Instant} {op : Operation} {u : Unit} {h h' : Hub} {t t' : Tables} {a : Action} {actions : List Action}

theorem stepped (hstep : hub.step h a = some h') : Stepped h a h' := by
  cases a with
  | call now op =>
    simp only [hub] at hstep
    split at hstep
    · rename_i hclock
      obtain rfl := Option.some.inj hstep
      unfold Hub.call
      split
      · rename_i hcall
        exact .committed hclock hcall
      · exact .failed hclock
    · cases hstep
  | project now =>
    simp only [hub] at hstep
    split at hstep
    · rename_i hclock
      obtain rfl := Option.some.inj hstep
      exact .projected hclock
    · cases hstep
  | relate =>
    simp only [hub] at hstep
    split at hstep
    · cases hstep
    · rename_i hkind
      obtain rfl := Option.some.inj hstep
      exact .related hkind

/-- The tables are consistent, and the graph is what they asked for at some time that is past. -/
structure Hub.Sound (h : Hub) : Prop where
  consistent : Consistent h.tables
  mirrors : ∃ time ≤ h.clock, Mirrors h.tables h.graph time

theorem Hub.sound_start (clock : Instant) : (Hub.start clock).Sound where
  consistent := consistent_empty
  mirrors := ⟨clock, le_rfl, mirrors_sync (consistent_empty.projectable clock) _⟩

theorem consistent_perform (ht : Consistent t)
    (h : atomically (perform now op) t = (.ok u, t')) : Consistent t' := by
  rcases atomically_perform h with hchanges | ⟨agentId, userId, checks, claimCode, -, -, rfl⟩
  · exact ht.changes hchanges
  · exact consistent_unbind ht

theorem grows_perform (h : atomically (perform now op) t = (.ok u, t')) : Grows t t' := by
  rcases atomically_perform h with hchanges | ⟨agentId, userId, checks, claimCode, -, -, rfl⟩
  · exact hchanges.grows
  · exact .modifyAgents

theorem Hub.Sound.step (hsound : h.Sound) (hstep : hub.step h a = some h') : h'.Sound := by
  cases stepped hstep with
  | committed hclock hcall =>
    have hconsistent := consistent_perform hsound.consistent hcall
    exact ⟨hconsistent, _, le_rfl, mirrors_sync (hconsistent.projectable _) _⟩
  | failed hclock =>
    obtain ⟨time, htime, hmirrors⟩ := hsound.mirrors
    exact ⟨hsound.consistent, time, htime.trans hclock, hmirrors⟩
  | projected hclock => exact ⟨hsound.consistent, _, le_rfl, mirrors_sync (hsound.consistent.projectable _) _⟩
  | related hkind =>
    obtain ⟨time, htime, hmirrors⟩ := hsound.mirrors
    exact ⟨hsound.consistent, time, htime, hmirrors.upsert_other (fun _ he => desired_source he) hkind⟩

theorem Hub.Sound.run (hsound : h.Sound) (hrun : hub.run h actions = some h') :
    h'.Sound :=
  hub.run_invariant (fun _ _ _ hsound hstep => hsound.step hstep) hsound hrun

theorem Hub.Sound.reachable {h : Hub} (hreach : hub.Reachable Hub.Initial h) : h.Sound := by
  obtain ⟨_, actions, ⟨clock, rfl⟩, hrun⟩ := hreach
  exact (sound_start clock).run hrun

theorem run_grows (hrun : hub.run h actions = some h') :
    h.clock ≤ h'.clock ∧ Grows h.tables h'.tables := by
  refine hub.run_invariant (P := fun s => h.clock ≤ s.clock ∧ Grows h.tables s.tables) (fun s a s' hs hstep => ?_)
    ⟨le_rfl, .refl _⟩ hrun
  cases stepped hstep with
  | committed hclock hcall => exact ⟨hs.1.trans hclock, hs.2.trans (grows_perform hcall)⟩
  | failed hclock => exact ⟨hs.1.trans hclock, hs.2⟩
  | projected hclock => exact ⟨hs.1.trans hclock, hs.2⟩
  | related => exact hs

end BotCord.Spaces
