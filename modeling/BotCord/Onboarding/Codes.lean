import BotCord.Foundation.Keyed
import BotCord.Foundation.Run

/-!
# Onboarding tickets and short codes

The signed tickets and the short codes by which an agent is installed, provisioned, bound or given a new credential: `openclaw_install`, `revoke_openclaw_install_code`, `openclaw_provision`, `create_credential_reset_ticket`, `reset_agent_credential`, `claim_agent`, `agent_bind` and the status of an install code of `app/routers/users.py`, with `_consume_short_code`, `_consume_short_code_with_claim`, `_revert_short_code_claim` and `_consume_bind_ticket_jti`; `openclaw_install_claim` and `openclaw_provision_claim` of `hub/routers/openclaw_control.py`. A call goes on from one commit to the next; the codes and the used tickets are committed in sessions of their own. Whatever else refuses a call, a proof or a quota, does so before it has consumed anything.
-/

namespace BotCord.Onboarding

abbrev UserId := String

abbrev AgentId := String

abbrev HostId := String

abbrev Code := ℕ

abbrev Jti := ℕ

/-- Seconds. -/
abbrev Instant := ℕ

def bindTicketTtl : ℕ := 30 * 60

def resetTicketTtl : ℕ := 30 * 60

def provisionTicketTtl : ℕ := 5 * 60

/-- How often a code can be used; nothing sets it to anything else. -/
def maxUses : ℕ := 1

inductive Purpose
  | openclawInstall | credentialReset
deriving DecidableEq

inductive Deed
  | install | provision | bind | reset
deriving DecidableEq

structure Ticket where
  uid : UserId
  purpose : Option Purpose
  agentId : Option AgentId := none
  exp : Instant
  jti : Jti
deriving DecidableEq

def Ticket.deed (t : Ticket) : Deed :=
  match t.purpose with
  | none => .bind
  | some .openclawInstall => .install
  | some .credentialReset => .reset

inductive CodeKind
  | bind | credentialReset | openclawProvision
deriving DecidableEq

structure ShortCode where
  code : Code
  kind : CodeKind
  ownerUserId : UserId
  ticket : Option Ticket := none
  openclawHostId : Option HostId := none
  claimedAgentId : Option AgentId := none
  expiresAt : Instant
  useCount : ℕ := 0
  consumedAt : Option Instant := none

structure Agent where
  agentId : AgentId
  userId : Option UserId
  openclawHostId : Option HostId := none

structure Success where
  deed : Deed
  agentId : AgentId
  ticket : Option Ticket := none
  code : Option Code := none

inductive Status
  | claimed (agentId : AgentId) | revoked | expired | pending

namespace ShortCode

variable (row : ShortCode) (now : Instant)

def Open : Prop := row.consumedAt = none ∧ row.useCount < maxUses ∧ now < row.expiresAt
deriving Decidable

def consume (agentId : Option AgentId) : ShortCode :=
  { row with
    useCount := row.useCount + 1
    consumedAt := if row.useCount + 1 ≥ maxUses then some now else row.consumedAt
    claimedAgentId := agentId.or row.claimedAgentId }

/-- The stamp of a claim is taken off, and with `reopen` the code is as if it had not been used. -/
def revert (reopen : Bool) : ShortCode :=
  if reopen then { row with claimedAgentId := none, consumedAt := none, useCount := 0 }
  else { row with claimedAgentId := none }

def revoke : ShortCode :=
  if row.consumedAt = none then { row with consumedAt := some now, useCount := maxUses } else row

/-- `_burn_provision_code`. -/
def burn : ShortCode := if row.consumedAt = none then { row with consumedAt := some now } else row

/-- `get_openclaw_install_status`. -/
def status : Status :=
  if row.consumedAt = none then if row.expiresAt ≤ now then .expired else .pending
  else match row.claimedAgentId with
    | some agentId => .claimed agentId
    | none => .revoked

theorem code_consume (agentId : Option AgentId) : (row.consume now agentId).code = row.code := rfl

theorem code_revert (reopen : Bool) : (row.revert reopen).code = row.code := by
  unfold revert
  split <;> rfl

theorem code_revoke : (row.revoke now).code = row.code := by
  unfold revoke
  split <;> rfl

theorem code_burn : (row.burn now).code = row.code := by
  unfold burn
  split <;> rfl

end ShortCode

/-- The claim of a code, by a host that installs itself or by one that is online. -/
structure Claim where
  kind : CodeKind
  code : Code
  ticket : Option Ticket := none
  agentId : AgentId
  ownerUserId : UserId
  hostId : HostId

def Claim.deed (c : Claim) : Deed := if c.kind = .openclawProvision then .provision else .install

inductive Call
  | claim (c : Claim)
  | claimConsumed (c : Claim) (ticket : Ticket)
  | claimInsert (c : Claim)
  | claimRevert (c : Claim)
  | provision (code : Code) (ownerUserId : UserId) (hostId : HostId)
  | provisionFailed (code : Code)
  | reset (ticket : Ticket) (code : Code) (agentId : AgentId)
  | resetConsumed (ticket : Ticket) (code : Option Code) (agentId : AgentId)
  | resetWrite (ticket : Ticket) (code : Option Code) (agentId : AgentId)
  | bind (ticket : Ticket) (agentId : AgentId)
  | bindWrite (ticket : Ticket) (agentId : AgentId)

structure Request where
  id : ℕ
  call : Call

def Request.goto (r : Request) (call : Call) : Request := { r with call }

theorem Request.id_goto (call : Call) (r : Request) : (r.goto call).id = r.id := rfl

theorem Agent.agentId_bind (userId : Option UserId) (a : Agent) : ({ a with userId } : Agent).agentId = a.agentId := rfl

structure Store where
  now : Instant := 0
  /-- Everything that was drawn is below. -/
  drawn : ℕ := 0
  issued : List Ticket := []
  codes : Keyed ShortCode.code := {}
  usedTickets : List Jti := []
  agents : Keyed Agent.agentId := {}
  /-- What succeeded. -/
  done : List Success := []
  /-- The codes that were revoked, or whose request was answered with an error. -/
  ended : List Code := []

namespace Store

variable (s : Store)

def Verifies (t : Ticket) : Prop := t ∈ s.issued ∧ s.now ≤ t.exp
deriving Decidable

/-- `_peek_short_code`. -/
def peek (code : Code) (kind : CodeKind) : Option ShortCode :=
  (s.codes.get? code).filter fun row => row.kind = kind ∧ row.Open s.now

/-- `_consume_short_code` and `_consume_short_code_with_claim`. -/
def consume (code : Code) (kind : CodeKind) (agentId : Option AgentId) : Option Store :=
  (s.peek code kind).map fun _ =>
    { s with
      codes := s.codes.modify (·.code = code) (·.consume s.now agentId) fun row => row.code_consume s.now agentId }

/-- `_consume_bind_ticket_jti`. -/
def useTicket (t : Ticket) : Option Store :=
  if t.jti ∈ s.usedTickets then none else some { s with usedTickets := t.jti :: s.usedTickets }

def issue (uid : UserId) (purpose : Purpose) (agentId : Option AgentId) (kind : CodeKind) (ttl : ℕ) : Option Store :=
  let ticket : Ticket := { uid, purpose := some purpose, agentId, exp := s.now + ttl, jti := s.drawn + 1 }
  (s.codes.insert? { code := s.drawn, kind, ownerUserId := uid, ticket := some ticket, expiresAt := s.now + ttl }).map
    fun codes => { s with codes, issued := ticket :: s.issued, drawn := s.drawn + 2 }

def issueProvision (uid : UserId) (hostId : HostId) : Option Store :=
  let row : ShortCode :=
    { code := s.drawn, kind := .openclawProvision, ownerUserId := uid, openclawHostId := some hostId,
      expiresAt := s.now + provisionTicketTtl }
  (s.codes.insert? row).map fun codes => { s with codes, drawn := s.drawn + 1 }

/-- A ticket without a purpose. No endpoint issues one any more, those that were issued are taken as before. -/
def issueBind (uid : UserId) (ttl : ℕ) : Store :=
  { s with issued := { uid, purpose := none, exp := s.now + ttl, jti := s.drawn } :: s.issued, drawn := s.drawn + 1 }

def revokeCode (code : Code) : Store :=
  { s with
    codes := s.codes.modify (·.code = code) (·.revoke s.now) fun row => row.code_revoke s.now
    ended := code :: s.ended }

def burnCode (code : Code) : Store :=
  { s with
    codes := s.codes.modify (fun row => row.code = code ∧ row.kind = .openclawProvision) (·.burn s.now)
      fun row => row.code_burn s.now
    ended := code :: s.ended }

/-- `_revert_short_code_claim`. -/
def revertClaim (c : Claim) : Store :=
  { s with
    codes := s.codes.modify (fun row => row.code = c.code ∧ row.kind = c.kind)
      (·.revert (c.kind = .openclawProvision)) fun row => row.code_revert (c.kind = .openclawProvision) }

def insertAgent (c : Claim) : Option Store :=
  (s.agents.insert? { agentId := c.agentId, userId := some c.ownerUserId, openclawHostId := some c.hostId }).map
    fun agents =>
      { s with
        agents
        done := { deed := c.deed, agentId := c.agentId, ticket := c.ticket, code := some c.code } :: s.done }

/-- `_bind_agent_to_user`. -/
def bindAgent (t : Ticket) (agentId : AgentId) : Option Store :=
  match s.agents.get? agentId with
  | none =>
    (s.agents.insert? { agentId, userId := some t.uid }).map fun agents =>
      { s with agents, done := { deed := .bind, agentId, ticket := some t } :: s.done }
  | some a =>
    if a.userId ≠ none then none
    else
      some { s with
        agents := s.agents.modify (·.agentId = agentId) (fun a => { a with userId := some t.uid })
          (Agent.agentId_bind (some t.uid))
        done := { deed := .bind, agentId, ticket := some t } :: s.done }

def resetAgent (t : Ticket) (code : Option Code) (agentId : AgentId) : Store :=
  { s with done := { deed := .reset, agentId, ticket := some t, code } :: s.done }

end Store

structure Hub where
  store : Store := {}
  calls : Keyed Request.id := {}

inductive Action
  | tick (seconds : ℕ)
  | issueBindTicket (uid : UserId) (ttl : ℕ)
  | openclawInstall (uid : UserId)
  | createCredentialResetTicket (uid : UserId) (agentId : AgentId)
  | revokeOpenclawInstallCode (uid : UserId) (code : Code)
  | openclawInstallClaim (i : ℕ) (code : Code) (agentId : AgentId) (hostId : HostId)
  | openclawProvision (i : ℕ) (uid : UserId) (hostId : HostId)
  /-- What the host answers to a provisioning, if it does. -/
  | ack (i : ℕ) (agentId : Option AgentId)
  | openclawProvisionClaim (i : ℕ) (uid : UserId) (hostId : HostId) (code : Code) (agentId : AgentId)
  | resetByTicket (i : ℕ) (ticket : Ticket) (agentId : AgentId)
  | resetByCode (i : ℕ) (code : Code) (agentId : AgentId)
  /-- A bind proof of a user, or the binding by the agent itself. -/
  | claimAgent (i : ℕ) (uid : UserId) (ticket : Ticket) (agentId : AgentId)
  | agentBind (i : ℕ) (ticket : Ticket) (agentId : AgentId)
  /-- The next commit of a call. -/
  | next (i : ℕ)
  /-- The insert of a claim fails. -/
  | fail (i : ℕ)
  | crash (i : ℕ)

namespace Hub

variable (d : Hub) (i : ℕ)

def begin (store : Store) (call : Call) : Option Hub :=
  (d.calls.insert? { id := i, call }).map fun calls => { store, calls }

def goto (store : Store) (call : Call) : Hub :=
  { store, calls := d.calls.modify (·.id = i) (·.goto call) (Request.id_goto call) }

def finish (store : Store) : Hub := { store, calls := d.calls.remove (·.id = i) }

/-- The next commit of a call. -/
def next : Call → Option Hub
  | .claim c =>
    match d.store.consume c.code c.kind (some c.agentId) with
    | none => some (d.finish i d.store)
    | some store =>
      match c.ticket with
      | none => some (d.goto i store (.claimInsert c))
      | some t => some (d.goto i store (.claimConsumed c t))
  | .claimConsumed c t =>
    match d.store.useTicket t with
    | none => some (d.finish i d.store)
    | some store => some (d.goto i store (.claimInsert c))
  | .claimInsert c =>
    match d.store.insertAgent c with
    | none => some (d.goto i d.store (.claimRevert c))
    | some store => some (d.finish i store)
  | .claimRevert c => some (d.finish i (d.store.revertClaim c))
  | .provision .. => none
  | .provisionFailed code => some (d.finish i (d.store.burnCode code))
  | .reset t code agentId =>
    match d.store.consume code .credentialReset none with
    | none => some (d.finish i d.store)
    | some store => some (d.goto i store (.resetConsumed t (some code) agentId))
  | .resetConsumed t code agentId =>
    match d.store.useTicket t with
    | none => some (d.finish i d.store)
    | some store => some (d.goto i store (.resetWrite t code agentId))
  | .resetWrite t code agentId => some (d.finish i (d.store.resetAgent t code agentId))
  | .bind t agentId =>
    match d.store.useTicket t with
    | none => some (d.finish i d.store)
    | some store => some (d.goto i store (.bindWrite t agentId))
  | .bindWrite t agentId => some (d.finish i ((d.store.bindAgent t agentId).getD d.store))

/-- `reset_agent_credential`, once it has the ticket. -/
def reset (t : Ticket) (code : Option Code) (agentId : AgentId) : Option Hub :=
  if d.store.Verifies t ∧ t.purpose = some .credentialReset ∧ t.agentId = some agentId ∧
      ∃ a ∈ d.store.agents, a.agentId = agentId ∧ a.userId = some t.uid then
    match code with
    | none => d.begin i d.store (.resetConsumed t none agentId)
    | some code => d.begin i d.store (.reset t code agentId)
  else none

end Hub

/-- The Hub with any number of calls. -/
def hub : System Hub Action where
  step d
    | .tick seconds => some { d with store := { d.store with now := d.store.now + seconds } }
    | .issueBindTicket uid ttl => some { d with store := d.store.issueBind uid ttl }
    | .openclawInstall uid =>
      (d.store.issue uid .openclawInstall none .bind bindTicketTtl).map fun store => { d with store }
    | .createCredentialResetTicket uid agentId =>
      if ∃ a ∈ d.store.agents, a.agentId = agentId ∧ a.userId = some uid then
        (d.store.issue uid .credentialReset (some agentId) .credentialReset resetTicketTtl).map fun store =>
          { d with store }
      else none
    | .revokeOpenclawInstallCode uid code =>
      if ∃ row ∈ d.store.codes, row.code = code ∧ row.kind = .bind ∧ row.ownerUserId = uid ∧ row.consumedAt = none then
        some { d with store := d.store.revokeCode code }
      else none
    | .openclawInstallClaim i code agentId hostId =>
      match (d.store.peek code .bind).bind (·.ticket) with
      | none => none
      | some t =>
        if d.store.Verifies t ∧ t.purpose = some .openclawInstall ∧ ∀ a ∈ d.store.agents, a.agentId ≠ agentId then
          d.begin i d.store (.claim { kind := .bind, code, ticket := some t, agentId, ownerUserId := t.uid, hostId })
        else none
    | .openclawProvision i uid hostId =>
      (d.store.issueProvision uid hostId).bind fun store => d.begin i store (.provision d.store.drawn uid hostId)
    | .ack i agentId =>
      match d.calls.get? i with
      | some ⟨_, .provision code uid hostId⟩ =>
        if ∃ a ∈ d.store.agents, some a.agentId = agentId ∧ a.userId = some uid ∧ a.openclawHostId = some hostId then
          some (d.finish i d.store)
        else some (d.goto i d.store (.provisionFailed code))
      | _ => none
    | .openclawProvisionClaim i uid hostId code agentId =>
      if (∃ row ∈ d.store.codes, row.code = code ∧ row.kind = .openclawProvision ∧ row.consumedAt = none ∧
          d.store.now ≤ row.expiresAt ∧ row.useCount < maxUses ∧ row.openclawHostId = some hostId ∧
          row.ownerUserId = uid) ∧ ∀ a ∈ d.store.agents, a.agentId ≠ agentId then
        d.begin i d.store (.claim { kind := .openclawProvision, code, agentId, ownerUserId := uid, hostId })
      else none
    | .resetByTicket i t agentId => d.reset i t none agentId
    | .resetByCode i code agentId =>
      ((d.store.peek code .credentialReset).bind (·.ticket)).bind fun t => d.reset i t (some code) agentId
    | .claimAgent i uid t agentId =>
      if d.store.Verifies t ∧ t.uid = uid then d.begin i d.store (.bind t agentId) else none
    | .agentBind i t agentId => if d.store.Verifies t then d.begin i d.store (.bind t agentId) else none
    | .next i => (d.calls.get? i).bind fun r => d.next i r.call
    | .fail i =>
      match d.calls.get? i with
      | some ⟨_, .claimInsert c⟩ => some (d.goto i d.store (.claimRevert c))
      | _ => none
    | .crash i => (d.calls.get? i).map fun _ => d.finish i d.store

end BotCord.Onboarding
