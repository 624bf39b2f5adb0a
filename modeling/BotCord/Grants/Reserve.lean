import BotCord.Foundation.Keyed
import BotCord.Foundation.Run
import Mathlib.Data.List.Sort

/-!
# Management grants

The grants of one agent and the requests that use them: `reserve_agent_management_scope_uses` and `release_agent_management_scope_uses` of `app/auth.py` around an operation such as `provision_agent` of `app/routers/users.py`. A reservation locks the grants of one scope after the other, picks one by what its session has loaded and spends it where the row still allows that; the operation is another transaction and the refund a third. A request may end at every await, by an exception or by a cancellation.
-/

namespace BotCord.Grants

abbrev GrantId := String

abbrev DaemonId := String

/-- Seconds. -/
abbrev Instant := ℕ

/-- The scopes that are known; a request with another one is refused at once. -/
inductive Scope
  | cloudAgentsCreate | teamOrchestrationProvision | daemonAgentsProvision | runtimeSkillsInstall
deriving DecidableEq

structure AgentManagementGrant where
  id : GrantId
  scope : Scope
  daemonInstanceId : Option DaemonId := none
  /-- The limit `max_uses`, where it is an integer. -/
  maxUses : Option ℤ := none
  useCount : ℤ := 0
  expiresAt : Option Instant := none
  revokedAt : Option Instant := none
  createdAt : Instant := 0

namespace AgentManagementGrant

variable (g : AgentManagementGrant) (daemonInstanceId : Option DaemonId) (now : Instant) (allowGlobal : Bool)

/-- A negative limit is none. -/
def limit : Option ℤ := g.maxUses.filter (0 ≤ ·)

def Unexpired : Prop := ∀ expiresAt ∈ g.expiresAt, now < expiresAt
deriving Decidable

/-- A grant is for the daemon, or for all of them where that is allowed. -/
def Serves : Prop :=
  match daemonInstanceId with
  | none => g.daemonInstanceId = none
  | some _ => (allowGlobal ∧ g.daemonInstanceId = none) ∨ g.daemonInstanceId = daemonInstanceId

instance : Decidable (g.Serves daemonInstanceId allowGlobal) :=
  match daemonInstanceId with
  | none => inferInstanceAs (Decidable (_ = _))
  | some _ => inferInstanceAs (Decidable (_ ∨ _))

/-- `_grant_is_current`. -/
def IsCurrent : Prop :=
  g.revokedAt = none ∧ g.Unexpired now ∧ (∀ maxUses ∈ g.limit, ¬ maxUses ≤ g.useCount) ∧
    g.Serves daemonInstanceId allowGlobal
deriving Decidable

/-- The conditions of the update on the row of a grant that was picked; its limit is the one that was loaded. -/
def Reservable (row : AgentManagementGrant) : Prop :=
  row.id = g.id ∧ row.revokedAt = none ∧ row.Unexpired now ∧ row.Serves daemonInstanceId allowGlobal ∧
    ∀ maxUses ∈ g.limit, row.useCount < maxUses
deriving Decidable

/-- The grants of the daemon come first, the older ones before the newer. -/
def Before (daemonInstanceId : Option DaemonId) (g h : AgentManagementGrant) : Prop :=
  let rank (g : AgentManagementGrant) := if daemonInstanceId ≠ none ∧ g.daemonInstanceId = daemonInstanceId then 0 else 1
  rank g < rank h ∨ rank g = rank h ∧ g.createdAt ≤ h.createdAt

instance : DecidableRel (Before daemonInstanceId) := fun _ _ => inferInstanceAs (Decidable (_ ∨ _))

def spend : AgentManagementGrant := { g with useCount := g.useCount + 1 }

def refund : AgentManagementGrant := { g with useCount := g.useCount - 1 }

def revoke : AgentManagementGrant := { g with revokedAt := some (g.revokedAt.getD now) }

theorem id_spend : g.spend.id = g.id := rfl

theorem id_refund : g.refund.id = g.id := rfl

theorem id_revoke : (g.revoke now).id = g.id := rfl

end AgentManagementGrant

inductive Phase
  /-- It has been checked and has reserved nothing. -/
  | required
  /-- The scopes that are left, the grants that are spent but not committed, the scopes without a grant. -/
  | reserving (left : List Scope) (reserved : List GrantId) (missing : List Scope)
  /-- The reservation is committed and the operation runs. -/
  | working (reserved : List GrantId)
  /-- The operation is committed. -/
  | committed (reserved : List GrantId)
  /-- The operation has failed. -/
  | releasing (reserved : List GrantId)
  | ended
deriving DecidableEq

structure Request where
  id : ℕ
  scopes : List Scope
  daemonInstanceId : Option DaemonId
  allowGlobalDaemonGrant : Bool
  /-- The grants of which the session still holds what an earlier select has read. -/
  loaded : List AgentManagementGrant
  now : Instant := 0
  phase : Phase := .required

namespace Request

variable (r : Request)

/-- What the session takes for a row: the object that it has, as it was loaded. -/
def object (row : AgentManagementGrant) : AgentManagementGrant := (r.loaded.find? (·.id = row.id)).getD row

def candidates (rows : List AgentManagementGrant) : List AgentManagementGrant :=
  ((rows.map r.object).filter (·.IsCurrent r.daemonInstanceId r.now r.allowGlobalDaemonGrant)).insertionSort
    (AgentManagementGrant.Before r.daemonInstanceId)

/-- `_reserve_agent_management_scope_use` over the rows of its scope: the first candidate that the update finds. -/
def reserve (rows : List AgentManagementGrant) : Option GrantId :=
  ((r.candidates rows).find? fun g =>
    ∃ row ∈ rows, g.Reservable r.daemonInstanceId r.now r.allowGlobalDaemonGrant row).map (·.id)

def goto (phase : Phase) : Request := { r with phase }

def start (now : Instant) : Request := { r with now, phase := .reserving r.scopes [] [] }

theorem id_goto (phase : Phase) : (r.goto phase).id = r.id := rfl

theorem id_start (now : Instant) : (r.start now).id = r.id := rfl

end Request

structure Hub where
  now : Instant := 0
  grants : Keyed AgentManagementGrant.id := {}
  /-- The request that has locked the row of a grant. -/
  locked : GrantId → Option ℕ := fun _ => none
  requests : Keyed Request.id := {}
  /-- The operations that took effect, each with its grants. -/
  effects : List (List GrantId) := []

inductive Action
  | tick (seconds : ℕ)
  | createGrant (id : GrantId) (scope : Scope) (daemonInstanceId : Option DaemonId) (maxUses : Option ℤ)
    (expiresAt : Option Instant)
  | revokeGrant (id : GrantId)
  /-- A request is checked; the objects of some grants stay in its session. -/
  | require (i : ℕ) (scopes : List Scope) (daemonInstanceId : Option DaemonId) (allowGlobalDaemonGrant : Bool)
    (kept : List GrantId)
  /-- The next statement of a reservation or of a refund. -/
  | next (i : ℕ)
  /-- The operation commits. -/
  | effect (i : ℕ)
  /-- The request is answered. -/
  | answer (i : ℕ)
  /-- What the request awaits raises an exception. -/
  | fail (i : ℕ)
  /-- The request is cancelled, or its process ends. -/
  | cancel (i : ℕ)

namespace Hub

variable (d : Hub) (i : ℕ)

def goto (phase : Phase) : Hub := { d with requests := d.requests.modify (·.id = i) (·.goto phase) (·.id_goto phase) }

def unlock : Hub := { d with locked := fun id => if d.locked id = some i then none else d.locked id }

def stop : Hub := (d.goto i .ended).unlock i

def rowsOf (scope : Scope) : List AgentManagementGrant := d.grants.rows.filter (·.scope = scope)

/-- Lock the rows of a scope and spend one of its grants, where one is left. -/
def reserveScope (r : Request) (scope : Scope) (left : List Scope) (reserved : List GrantId) (missing : List Scope) : Hub :=
  let phase :=
    match r.reserve (d.rowsOf scope) with
    | some id => .reserving left (reserved ++ [id]) missing
    | none => .reserving left reserved (missing ++ [scope])
  { d.goto i phase with locked := fun id => if ∃ g ∈ d.rowsOf scope, g.id = id then some i else d.locked id }

def commitReserved (reserved : List GrantId) : Hub :=
  { d.goto i (.working reserved) with
    grants := d.grants.modify (·.id ∈ reserved) AgentManagementGrant.spend AgentManagementGrant.id_spend }.unlock i

/-- `release_agent_management_scope_uses`. -/
def release (reserved : List GrantId) : Hub :=
  { d.goto i .ended with
    grants := d.grants.modify (fun g => g.id ∈ reserved ∧ 0 < g.useCount) AgentManagementGrant.refund
      AgentManagementGrant.id_refund }

end Hub

/-- The Hub with the grants of one agent. -/
def hub : System Hub Action where
  step d
    | .tick seconds => some { d with now := d.now + seconds }
    | .createGrant id scope daemonInstanceId maxUses expiresAt =>
      (d.grants.insert? { id, scope, daemonInstanceId, maxUses, expiresAt, createdAt := d.now }).map fun grants =>
        { d with grants }
    | .revokeGrant id =>
      if d.locked id = none then
        some { d with grants := d.grants.modify (·.id = id) (·.revoke d.now) (·.id_revoke d.now) }
      else none
    | .require i scopes daemonInstanceId allowGlobalDaemonGrant kept =>
      let scopes := scopes.eraseDups
      let loaded := d.grants.rows.filter fun g => g.scope ∈ scopes ∧ g.id ∈ kept
      (d.requests.insert? { id := i, scopes, daemonInstanceId, allowGlobalDaemonGrant, loaded }).map fun requests =>
        { d with requests }
    | .next i =>
      match d.requests.get? i with
      | none => none
      | some r =>
        match r.phase with
        | .required => some { d with requests := d.requests.modify (·.id = i) (·.start d.now) (·.id_start d.now) }
        | .reserving (scope :: left) reserved missing =>
          if ∀ g ∈ d.rowsOf scope, d.locked g.id = none ∨ d.locked g.id = some i then
            some (d.reserveScope i r scope left reserved missing)
          else none
        | .reserving [] reserved [] => some (d.commitReserved i reserved)
        | .reserving [] _ (_ :: _) => some (d.stop i)
        | .releasing reserved => if ∀ id ∈ reserved, d.locked id = none then some (d.release i reserved) else none
        | _ => none
    | .effect i =>
      match d.requests.get? i with
      | some { phase := .working reserved, .. } =>
        some { d.goto i (.committed reserved) with effects := d.effects ++ [reserved] }
      | _ => none
    | .answer i =>
      match d.requests.get? i with
      | some { phase := .committed _, .. } => some (d.goto i .ended)
      | _ => none
    | .fail i =>
      match d.requests.get? i with
      | some { phase := .required, .. } | some { phase := .reserving .., .. } | some { phase := .releasing _, .. } =>
        some (d.stop i)
      | some { phase := .working reserved, .. } | some { phase := .committed reserved, .. } =>
        some (d.goto i (.releasing reserved))
      | _ => none
    | .cancel i =>
      match d.requests.get? i with
      | none | some { phase := .ended, .. } => none
      | some _ => some (d.stop i)

end BotCord.Grants
