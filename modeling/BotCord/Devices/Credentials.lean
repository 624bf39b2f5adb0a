import BotCord.Foundation.Keyed
import BotCord.Foundation.Run

/-!
# Device credentials

Install tokens, device codes and refresh tokens, and the endpoints that turn them into credential bundles: `redeem_install_token`, `poll_device_token`, `approve_device_code` and `refresh_daemon_token` of `hub/routers/daemon_control.py`, `openclaw_refresh_token` of `hub/routers/openclaw_control.py`. A call reads its rows in one statement and writes and commits in a later one. Tokens are drawn at random, so no two are the same, and stand for their hashes.
-/

namespace BotCord.Devices

abbrev Token := ℕ

abbrev InstanceId := ℕ

abbrev UserId := String

/-- Seconds. -/
abbrev Instant := ℕ

def daemonInstallTicketTtlSeconds : ℕ := 600

def daemonDeviceCodeTtlSeconds : ℕ := 600

def openclawRefreshTokenTtlSeconds : ℕ := 60 * 60 * 24 * 30

inductive InstanceKind
  | daemon | openclaw
deriving DecidableEq

/-- A daemon or an OpenClaw host; a refresh token that is burnt is `none`. -/
structure Instance where
  id : InstanceId
  kind : InstanceKind
  userId : UserId
  refreshToken : Option Token
  refreshTokenExpiresAt : Option Instant := none
  revokedAt : Option Instant := none

structure InstallTicket where
  token : Token
  userId : UserId
  daemonInstanceId : Option InstanceId
  expiresAt : Instant
  consumedAt : Option Instant := none

structure Bundle where
  userId : UserId
  instanceId : InstanceId
  refreshToken : Token

inductive CodeStatus
  | pending | approved | consumed | denied
deriving DecidableEq

structure DeviceCode where
  deviceCode : Token
  userCode : String
  expiresAt : Instant
  status : CodeStatus := .pending
  userId : Option UserId := none
  daemonInstanceId : Option InstanceId := none
  issuedToken : Option Bundle := none

inductive Credential
  | install (token : Token)
  | device (deviceCode : Token)
  | refresh (token : Token)
deriving DecidableEq

structure Handout where
  credential : Credential
  bundle : Bundle

structure Approval where
  deviceCode : Token
  userId : UserId
  instanceId : InstanceId

namespace Instance

variable (x : Instance) (token : Token) (now : Instant)

def rotate : Instance :=
  match x.kind with
  | .daemon => { x with refreshToken := some token }
  | .openclaw =>
    { x with refreshToken := some token, refreshTokenExpiresAt := some (now + openclawRefreshTokenTtlSeconds) }

/-- `_mark_instance_revoked`, or what `delete_openclaw_host` does to the host. -/
def revoke : Instance :=
  match x.kind with
  | .daemon => if x.revokedAt = none then { x with revokedAt := some now, refreshToken := none } else x
  | .openclaw => { x with revokedAt := some (x.revokedAt.getD now), refreshToken := none, refreshTokenExpiresAt := none }

theorem id_rotate : (x.rotate token now).id = x.id := by
  cases h : x.kind <;> simp [rotate, h]

theorem id_revoke : (x.revoke now).id = x.id := by
  cases hkind : x.kind with
  | daemon =>
    simp only [revoke, hkind]
    split <;> rfl
  | openclaw => simp [revoke, hkind]

end Instance

def InstallTicket.consume (t : InstallTicket) (now : Instant) (instanceId : InstanceId) : InstallTicket :=
  { t with consumedAt := some now, daemonInstanceId := some instanceId }

theorem InstallTicket.token_consume (t : InstallTicket) (now : Instant) (instanceId : InstanceId) :
    (t.consume now instanceId).token = t.token := rfl

namespace DeviceCode

variable (c : DeviceCode) (bundle : Bundle)

def consume : DeviceCode := { c with status := .consumed, issuedToken := none }

def approve : DeviceCode :=
  { c with
    status := .approved, userId := some bundle.userId, daemonInstanceId := some bundle.instanceId,
    issuedToken := some bundle }

theorem deviceCode_consume : c.consume.deviceCode = c.deviceCode := rfl

theorem deviceCode_approve : (c.approve bundle).deviceCode = c.deviceCode := rfl

end DeviceCode

/-- What is committed. -/
structure Store where
  now : Instant := 0
  /-- Everything that was drawn is below. -/
  drawn : ℕ := 0
  instances : Keyed Instance.id := {}
  tickets : Keyed InstallTicket.token := {}
  codes : Keyed DeviceCode.deviceCode := {}
  /-- The bundles that were handed out, the last one first. -/
  handed : List Handout := []
  approvals : List Approval := []

namespace Store

variable (s : Store)

/-- Insert an instance under an id and with a token that are drawn. -/
def provision (kind : InstanceKind) (userId : UserId) (expiresAt : Option Instant) : Option Store :=
  (s.instances.insert?
      { id := s.drawn, kind, userId, refreshToken := some (s.drawn + 1), refreshTokenExpiresAt := expiresAt }).map
    fun instances => { s with instances, drawn := s.drawn + 2 }

def rotate (id : InstanceId) : Store :=
  { s with
    instances := s.instances.modify (·.id = id) (·.rotate s.drawn s.now) (·.id_rotate s.drawn s.now)
    drawn := s.drawn + 1 }

def hand (credential : Credential) (bundle : Bundle) : Store := { s with handed := ⟨credential, bundle⟩ :: s.handed }

def consumeTicket (t : InstallTicket) (instanceId : InstanceId) : Store :=
  { s with
    tickets := s.tickets.modify (·.token = t.token) (·.consume s.now instanceId) (·.token_consume s.now instanceId) }

/-- `_provision_daemon_instance` or the instance that was asked for, and the ticket is consumed. -/
def redeem (t : InstallTicket) : Option Instance → Option Store
  | none =>
    (s.provision .daemon t.userId none).map fun s' =>
      (s'.consumeTicket t s.drawn).hand (.install t.token) ⟨t.userId, s.drawn, s.drawn + 1⟩
  | some x => some (((s.rotate x.id).consumeTicket t x.id).hand (.install t.token) ⟨t.userId, x.id, s.drawn⟩)

def poll (code : DeviceCode) (bundle : Bundle) : Store :=
  { s with
    codes := s.codes.modify (·.deviceCode = code.deviceCode) DeviceCode.consume DeviceCode.deviceCode_consume }.hand
    (.device code.deviceCode) bundle

def approve (code : DeviceCode) (userId : UserId) : Option Store :=
  (s.provision .daemon userId none).map fun s' =>
    { s' with
      codes := s.codes.modify (·.deviceCode = code.deviceCode) (·.approve ⟨userId, s.drawn, s.drawn + 1⟩)
        (·.deviceCode_approve ⟨userId, s.drawn, s.drawn + 1⟩)
      approvals := ⟨code.deviceCode, userId, s.drawn⟩ :: s.approvals }

def refresh (token : Token) (x : Instance) : Store := (s.rotate x.id).hand (.refresh token) ⟨x.userId, x.id, s.drawn⟩

/-- The instance that a ticket redeems is there, is the user's and is not revoked. -/
def redeemable (t : InstallTicket) (id : InstanceId) : Option Instance :=
  (s.instances.get? id).filter fun x => x.kind = .daemon ∧ x.userId = t.userId ∧ x.revokedAt = none

/-- The instance whose refresh token is presented, while it may be used. -/
def refreshable (kind : InstanceKind) (token : Token) : Option Instance :=
  (s.instances.rows.find? fun x => x.kind = kind ∧ x.refreshToken = some token).filter fun x =>
    x.revokedAt = none ∧ ∀ expiresAt ∈ x.refreshTokenExpiresAt, ¬ expiresAt < s.now

end Store

inductive Call
  /-- The ticket is read, the instance that is asked for is not yet. -/
  | ticket (ticket : InstallTicket) (instanceId : InstanceId)
  | redeem (ticket : InstallTicket) (existing : Option Instance)
  | poll (code : DeviceCode) (bundle : Bundle)
  | approve (code : DeviceCode) (userId : UserId)
  | refresh (token : Token) (loaded : Instance)

structure Hub where
  store : Store := {}
  calls : ℕ → Option Call := fun _ => none

inductive Action
  | tick (seconds : ℕ)
  | issueInstallTicket (userId : UserId) (daemonInstanceId : Option InstanceId)
  | issueDeviceCode (userCode : String)
  /-- An OpenClaw host is installed. -/
  | installHost (userId : UserId)
  | revokeInstance (id : InstanceId)
  | redeemInstallToken (i : ℕ) (token : Token) (daemonInstanceId : Option InstanceId)
  | pollDeviceToken (i : ℕ) (deviceCode : Token)
  | approveDeviceCode (i : ℕ) (userCode : String) (userId : UserId)
  | refreshDaemonToken (i : ℕ) (token : Token)
  | openclawRefreshToken (i : ℕ) (token : Token)
  /-- A call goes on with its next statement, the last of which writes and commits. -/
  | next (i : ℕ)
  | crash (i : ℕ)

namespace Hub

variable (d : Hub) (i : ℕ)

def goto (call : Call) : Hub := { d with calls := Function.update d.calls i (some call) }

def begin (call : Call) : Option Hub := if d.calls i = none then some (d.goto i call) else none

def finish (store : Store) : Hub := { store, calls := Function.update d.calls i none }

end Hub

def Store.outside (s : Store) : Action → Option Store
  | .tick seconds => some { s with now := s.now + seconds }
  | .issueInstallTicket userId daemonInstanceId =>
    (s.tickets.insert?
        { token := s.drawn, userId, daemonInstanceId, expiresAt := s.now + daemonInstallTicketTtlSeconds }).map
      fun tickets => { s with tickets, drawn := s.drawn + 1 }
  | .issueDeviceCode userCode =>
    if ∃ c ∈ s.codes, c.userCode = userCode then none
    else
      (s.codes.insert? { deviceCode := s.drawn, userCode, expiresAt := s.now + daemonDeviceCodeTtlSeconds }).map
        fun codes => { s with codes, drawn := s.drawn + 1 }
  | .installHost userId => s.provision .openclaw userId (some (s.now + openclawRefreshTokenTtlSeconds))
  | .revokeInstance id =>
    some { s with instances := s.instances.modify (·.id = id) (·.revoke s.now) (·.id_revoke s.now) }
  | _ => none

/-- The Hub with any number of calls; one that is refused does not begin or ends. -/
def hub : System Hub Action where
  step d
    | .redeemInstallToken i token daemonInstanceId =>
      match (d.store.tickets.get? token).filter fun t => d.store.now < t.expiresAt ∧ t.consumedAt = none with
      | none => none
      | some t =>
        match t.daemonInstanceId.or daemonInstanceId with
        | none => d.begin i (.redeem t none)
        | some id => d.begin i (.ticket t id)
    | .pollDeviceToken i deviceCode =>
      match (d.store.codes.get? deviceCode).filter fun c => d.store.now < c.expiresAt ∧ c.status = .approved with
      | none => none
      | some c => c.issuedToken.bind fun bundle => d.begin i (.poll c bundle)
    | .approveDeviceCode i userCode userId =>
      match d.store.codes.rows.find? fun c => c.userCode = userCode with
      | none => none
      | some c => if c.status = .pending ∧ d.store.now < c.expiresAt then d.begin i (.approve c userId) else none
    | .refreshDaemonToken i token => (d.store.refreshable .daemon token).bind fun x => d.begin i (.refresh token x)
    | .openclawRefreshToken i token => (d.store.refreshable .openclaw token).bind fun x => d.begin i (.refresh token x)
    | .next i =>
      match d.calls i with
      | none => none
      | some (.ticket t id) =>
        match d.store.redeemable t id with
        | some x => some (d.goto i (.redeem t (some x)))
        | none => some (d.finish i d.store)
      | some (.redeem t existing) => (d.store.redeem t existing).map (d.finish i)
      | some (.poll code bundle) => some (d.finish i (d.store.poll code bundle))
      | some (.approve code userId) => (d.store.approve code userId).map (d.finish i)
      | some (.refresh token x) => some (d.finish i (d.store.refresh token x))
    | .crash i => (d.calls i).map fun _ => d.finish i d.store
    | a => (d.store.outside a).map fun store => { d with store }

end BotCord.Devices
