import BotCord.Foundation.Run
import BotCord.Foundation.Table
import Mathlib.Data.List.Dedup

/-!
# The presence service

`hub/services/presence.py`: what agents are connected, what their owners set, what they are doing, and the status that is composed of it. Times are microseconds. The dictionaries of activity and attributes have the keys that the service writes or reads. Who set a manual status and when, and when a connection began, is read by no function and left out, and every agent named here is taken to exist.
-/

namespace BotCord.Presence

abbrev AgentId := String
abbrev Time := ℤ

inductive EffectiveStatus
  | offline | online | busy | away | working
deriving DecidableEq

inductive ManualStatus
  | available | busy | away | invisible
deriving DecidableEq

/-- `hub/config.py`, read from the environment. -/
structure Config where
  onlineTimeout : Time
  typingTimeout : Time
  processingFailsafeTimeout : Time

/-- What is taken where the environment says nothing. -/
def defaultConfig : Config := ⟨45000000, 8000000, 600000000⟩

structure Activity where
  processing : Option Bool := none
  processingExpiresAt : Option Time := none
  typing : Option Bool := none
  typingExpiresAt : Option Time := none
  idle : Option Bool := none
deriving DecidableEq

structure Attributes where
  currentTask : Option String := none
deriving DecidableEq

structure AgentStatusSettings where
  agentId : AgentId
  manualStatus : ManualStatus := .available
  statusMessage : Option String := none
  manualExpiresAt : Option Time := none

structure AgentPresence where
  agentId : AgentId
  effectiveStatus : EffectiveStatus := .offline
  connected : Bool := false
  connectionCount : ℕ := 0
  version : ℕ := 0
  lastSeenAt : Option Time := none
  activity : Activity := {}
  attributes : Attributes := {}
  updatedAt : Time

structure AgentPresenceConnection where
  connectionId : String
  agentId : AgentId
  nodeId : String
  lastSeenAt : Time

structure Tables where
  settings : List AgentStatusSettings := []
  presence : List AgentPresence := []
  connections : List AgentPresenceConnection := []

structure AgentPresenceSnapshot where
  agentId : AgentId
  effectiveStatus : EffectiveStatus
  connected : Bool
  connectionCount : ℕ
  version : ℕ
  lastSeenAt : Option Time
  activity : Activity
  attributes : Attributes
  manualStatus : ManualStatus
  statusMessage : Option String
  manualExpiresAt : Option Time
  updatedAt : Time

def resolveEffectiveStatus (manualStatus : ManualStatus) (connected : Bool) (activity : Activity) : EffectiveStatus :=
  if manualStatus = .invisible then .offline
  else if ¬ connected then .offline
  else if activity.processing = some true then .working
  else if manualStatus = .busy then .busy
  else if manualStatus = .away ∨ activity.idle = some true then .away
  else .online

/-- A manual status whose time has passed. -/
def AgentStatusSettings.Expired (settings : AgentStatusSettings) (now : Time) : Prop :=
  ∃ expiresAt ∈ settings.manualExpiresAt, expiresAt ≤ now
deriving Decidable

def expireManualIfNeeded (settings : AgentStatusSettings) (now : Time) : AgentStatusSettings :=
  if settings.Expired now then
    { settings with manualStatus := .available, statusMessage := none, manualExpiresAt := none }
  else settings

def expireProcessingIfNeeded (activity : Activity) (now : Time) : Activity :=
  if (∃ expiresAt ∈ activity.processingExpiresAt, expiresAt ≤ now) ∧ activity.processing = some true then
    { activity with processing := some false, processingExpiresAt := none }
  else activity

namespace Tables

variable (cfg : Config) (s : Tables)

def findSettings (agentId : AgentId) : Option AgentStatusSettings := s.settings.find? (·.agentId = agentId)

def findPresence (agentId : AgentId) : Option AgentPresence := s.presence.find? (·.agentId = agentId)

/-- The row of `_ensure_settings`: the agent's, or the one it inserts. -/
def ensureSettings (agentId : AgentId) : AgentStatusSettings := (s.findSettings agentId).getD { agentId }

/-- The row of `_ensure_presence`. -/
def ensurePresence (agentId : AgentId) (now : Time) : AgentPresence :=
  (s.findPresence agentId).getD { agentId, updatedAt := now }

def putSettings (settings : AgentStatusSettings) : Tables :=
  { s with settings := Table.put AgentStatusSettings.agentId settings s.settings }

def putPresence (presence : AgentPresence) : Tables :=
  { s with presence := Table.put AgentPresence.agentId presence s.presence }

/-- The connection is one of the agent's that was seen lately. -/
def Live (agentId : AgentId) (now : Time) (connection : AgentPresenceConnection) : Prop :=
  connection.agentId = agentId ∧ now - cfg.onlineTimeout ≤ connection.lastSeenAt
deriving Decidable

def countConnections (agentId : AgentId) (now : Time) : ℕ := (s.connections.filter (Live cfg agentId now ·)).length

def upsertConnection (connectionId : String) (agentId : AgentId) (nodeId : String) (now : Time) : Tables :=
  { s with
    connections :=
      if connectionId ∈ s.connections.map AgentPresenceConnection.connectionId then
        Table.update (·.connectionId = connectionId) (fun c => { c with lastSeenAt := now, nodeId }) s.connections
      else s.connections ++ [{ connectionId, agentId, nodeId, lastSeenAt := now }] }

end Tables

def toSnapshot (presence : AgentPresence) (settings : AgentStatusSettings) : AgentPresenceSnapshot :=
  { agentId := presence.agentId, effectiveStatus := presence.effectiveStatus, connected := presence.connected
    connectionCount := presence.connectionCount, version := presence.version, lastSeenAt := presence.lastSeenAt
    activity := presence.activity, attributes := presence.attributes, manualStatus := settings.manualStatus
    statusMessage := settings.statusMessage, manualExpiresAt := settings.manualExpiresAt
    updatedAt := presence.updatedAt }

/-- `get_snapshots` of one agent; without settings the manual status is the default. -/
def Tables.getSnapshot (s : Tables) (agentId : AgentId) : Option AgentPresenceSnapshot :=
  (s.findPresence agentId).map fun presence => toSnapshot presence (s.ensureSettings agentId)

/-- What a recomputation is given: the tables it finds, and what overrides the stored activity and attributes. -/
structure Recomputation where
  tables : Tables
  agentId : AgentId
  now : Time
  activityOverride : Option Activity := none
  attributesOverride : Option Attributes := none

namespace Recomputation

variable (cfg : Config) (r : Recomputation)

def settings : AgentStatusSettings := expireManualIfNeeded (r.tables.ensureSettings r.agentId) r.now

def stored : AgentPresence := r.tables.ensurePresence r.agentId r.now

def activity : Activity := expireProcessingIfNeeded (r.activityOverride.getD r.stored.activity) r.now

def attributes : Attributes := r.attributesOverride.getD r.stored.attributes

def connectionCount : ℕ := r.tables.countConnections cfg r.agentId r.now

def connected : Bool := decide (0 < r.connectionCount cfg)

def newStatus : EffectiveStatus := resolveEffectiveStatus r.settings.manualStatus (r.connected cfg) r.activity

def Changed : Prop :=
  r.stored.effectiveStatus ≠ r.newStatus cfg ∨ r.stored.connected ≠ r.connected cfg ∨
    r.stored.connectionCount ≠ r.connectionCount cfg ∨ r.stored.activity ≠ r.activity ∨ r.stored.attributes ≠ r.attributes
deriving Decidable

def presence : AgentPresence :=
  { agentId := r.stored.agentId, effectiveStatus := r.newStatus cfg, connected := r.connected cfg
    connectionCount := r.connectionCount cfg
    version := if r.Changed cfg then r.stored.version + 1 else r.stored.version
    lastSeenAt := if r.Changed cfg ∧ r.connected cfg = true then some r.now else r.stored.lastSeenAt
    activity := r.activity, attributes := r.attributes, updatedAt := r.now }

end Recomputation

/-- The tables after a recomputation, the snapshot it returns, and whether it is to be broadcast. -/
structure Recomputed where
  tables : Tables
  snapshot : AgentPresenceSnapshot
  changed : Bool

def recomputeAndPersist (cfg : Config) (r : Recomputation) : Recomputed where
  tables := (r.tables.putSettings r.settings).putPresence (r.presence cfg)
  snapshot := toSnapshot (r.presence cfg) r.settings
  changed := decide (r.Changed cfg)

/-- What `mark_connected` and `mark_heartbeat` both do. -/
def touchConnection (s : Tables) (agentId : AgentId) (connectionId nodeId : String) (now : Time) : Recomputation :=
  { tables := s.upsertConnection connectionId agentId nodeId now, agentId, now }

def markConnected (cfg : Config) (s : Tables) (agentId : AgentId) (connectionId nodeId : String) (now : Time) :
    Recomputed :=
  recomputeAndPersist cfg (touchConnection s agentId connectionId nodeId now)

def markHeartbeat (cfg : Config) (s : Tables) (agentId : AgentId) (connectionId nodeId : String) (now : Time) :
    Recomputed :=
  recomputeAndPersist cfg (touchConnection s agentId connectionId nodeId now)

def dropConnection (s : Tables) (agentId : AgentId) (connectionId : String) (now : Time) : Recomputation :=
  { tables := { s with connections := s.connections.filter (·.connectionId ≠ connectionId) }, agentId, now }

def markDisconnected (cfg : Config) (s : Tables) (agentId : AgentId) (connectionId : String) (now : Time) : Recomputed :=
  recomputeAndPersist cfg (dropConnection s agentId connectionId now)

def withManualStatus (s : Tables) (agentId : AgentId) (manualStatus : ManualStatus) (statusMessage : Option String)
    (manualExpiresAt : Option Time) (now : Time) : Recomputation :=
  { tables := s.putSettings { s.ensureSettings agentId with manualStatus, statusMessage, manualExpiresAt }, agentId, now }

def setManualStatus (cfg : Config) (s : Tables) (agentId : AgentId) (manualStatus : ManualStatus)
    (statusMessage : Option String) (manualExpiresAt : Option Time) (now : Time) : Recomputed :=
  recomputeAndPersist cfg (withManualStatus s agentId manualStatus statusMessage manualExpiresAt now)

/-- The activity of `set_processing`; without a time to expire at it is the failsafe's. -/
def processingActivity (cfg : Config) (activity : Activity) (processing : Bool) (expiresAt : Option Time) (now : Time) :
    Activity :=
  { activity with
    processing := some processing
    processingExpiresAt := if processing then some (expiresAt.getD (now + cfg.processingFailsafeTimeout)) else none }

def processingAttributes (attributes : Attributes) (processing : Bool) (currentTask : Option String) : Attributes :=
  { attributes with currentTask := if processing then currentTask.or attributes.currentTask else none }

def withProcessing (cfg : Config) (s : Tables) (agentId : AgentId) (processing : Bool) (currentTask : Option String)
    (expiresAt : Option Time) (now : Time) : Recomputation :=
  let presence := s.ensurePresence agentId now
  { tables := s.putPresence presence, agentId, now
    activityOverride := some (processingActivity cfg presence.activity processing expiresAt now)
    attributesOverride := some (processingAttributes presence.attributes processing currentTask) }

def setProcessing (cfg : Config) (s : Tables) (agentId : AgentId) (processing : Bool) (currentTask : Option String)
    (expiresAt : Option Time) (now : Time) : Recomputed :=
  recomputeAndPersist cfg (withProcessing cfg s agentId processing currentTask expiresAt now)

def typingActivity (cfg : Config) (activity : Activity) (typing : Bool) (expiresAt : Option Time) (now : Time) :
    Activity :=
  { activity with
    typing := some typing
    typingExpiresAt := if typing then some (expiresAt.getD (now + cfg.typingTimeout)) else none }

def withTyping (cfg : Config) (s : Tables) (agentId : AgentId) (typing : Bool) (expiresAt : Option Time) (now : Time) :
    Recomputation :=
  let presence := s.ensurePresence agentId now
  { tables := s.putPresence presence, agentId, now
    activityOverride := some (typingActivity cfg presence.activity typing expiresAt now) }

def setTyping (cfg : Config) (s : Tables) (agentId : AgentId) (typing : Bool) (expiresAt : Option Time) (now : Time) :
    Recomputed :=
  recomputeAndPersist cfg (withTyping cfg s agentId typing expiresAt now)

def Stale (cfg : Config) (now : Time) (connection : AgentPresenceConnection) : Prop :=
  connection.lastSeenAt < now - cfg.onlineTimeout
deriving Decidable

def dropStale (cfg : Config) (s : Tables) (now : Time) : Tables :=
  { s with connections := s.connections.filter (¬ Stale cfg now ·) }

/-- The agents that lose a lease, and those that claim to be connected without one. -/
def affectedAgents (cfg : Config) (s : Tables) (now : Time) : List AgentId :=
  ((s.connections.filter (Stale cfg now ·)).map AgentPresenceConnection.agentId ++
    (s.presence.filter fun p => p.connected = true ∧ (dropStale cfg s now).countConnections cfg p.agentId now = 0).map
      AgentPresence.agentId).dedup

/-- The recomputations one after the other; the snapshots that changed are returned. -/
def recomputeEach (cfg : Config) (now : Time) : Tables → List AgentId → Tables × List AgentPresenceSnapshot
  | s, [] => (s, [])
  | s, agentId :: rest =>
    let first := recomputeAndPersist cfg { tables := s, agentId, now }
    let (t, snapshots) := recomputeEach cfg now first.tables rest
    (t, if first.changed then first.snapshot :: snapshots else snapshots)

def cleanupStale (cfg : Config) (s : Tables) (now : Time) : Tables × List AgentPresenceSnapshot :=
  recomputeEach cfg now (dropStale cfg s now) (affectedAgents cfg s now)

inductive Operation
  | markConnected (agentId : AgentId) (connectionId nodeId : String) (now : Time)
  | markHeartbeat (agentId : AgentId) (connectionId nodeId : String) (now : Time)
  | markDisconnected (agentId : AgentId) (connectionId : String) (now : Time)
  | setManualStatus (agentId : AgentId) (manualStatus : ManualStatus) (statusMessage : Option String)
      (manualExpiresAt : Option Time) (now : Time)
  | setProcessing (agentId : AgentId) (processing : Bool) (currentTask : Option String) (expiresAt : Option Time)
      (now : Time)
  | setTyping (agentId : AgentId) (typing : Bool) (expiresAt : Option Time) (now : Time)
  | cleanupStale (now : Time)

def Operation.apply (cfg : Config) (s : Tables) : Operation → Tables
  | .markConnected agentId connectionId nodeId now => (Presence.markConnected cfg s agentId connectionId nodeId now).tables
  | .markHeartbeat agentId connectionId nodeId now => (Presence.markHeartbeat cfg s agentId connectionId nodeId now).tables
  | .markDisconnected agentId connectionId now => (Presence.markDisconnected cfg s agentId connectionId now).tables
  | .setManualStatus agentId manualStatus statusMessage manualExpiresAt now =>
    (Presence.setManualStatus cfg s agentId manualStatus statusMessage manualExpiresAt now).tables
  | .setProcessing agentId processing currentTask expiresAt now =>
    (Presence.setProcessing cfg s agentId processing currentTask expiresAt now).tables
  | .setTyping agentId typing expiresAt now => (Presence.setTyping cfg s agentId typing expiresAt now).tables
  | .cleanupStale now => (Presence.cleanupStale cfg s now).1

def service (cfg : Config) : System Tables Operation := System.total fun s op => op.apply cfg s

section Recompute

variable {cfg : Config} {s : Tables} {r : Recomputation} {agentId : AgentId}

theorem findSettings_putSettings_self (s : Tables) (settings : AgentStatusSettings) :
    (s.putSettings settings).findSettings settings.agentId = some settings :=
  Table.find?_put_self AgentStatusSettings.agentId settings s.settings

theorem findSettings_putSettings_of_ne {settings : AgentStatusSettings} (h : agentId ≠ settings.agentId) :
    (s.putSettings settings).findSettings agentId = s.findSettings agentId :=
  Table.find?_put_of_ne h

theorem findPresence_putPresence_self (s : Tables) (presence : AgentPresence) :
    (s.putPresence presence).findPresence presence.agentId = some presence :=
  Table.find?_put_self AgentPresence.agentId presence s.presence

theorem findPresence_putPresence_of_ne {presence : AgentPresence} (h : agentId ≠ presence.agentId) :
    (s.putPresence presence).findPresence agentId = s.findPresence agentId :=
  Table.find?_put_of_ne h

@[simp] theorem findPresence_putSettings (s : Tables) (settings : AgentStatusSettings) (agentId : AgentId) :
    (s.putSettings settings).findPresence agentId = s.findPresence agentId := rfl

@[simp] theorem findSettings_putPresence (s : Tables) (presence : AgentPresence) (agentId : AgentId) :
    (s.putPresence presence).findSettings agentId = s.findSettings agentId := rfl

theorem agentId_ensureSettings (s : Tables) (agentId : AgentId) : (s.ensureSettings agentId).agentId = agentId := by
  rw [Tables.ensureSettings]
  cases hfind : s.findSettings agentId with
  | none => rfl
  | some settings => simpa using List.find?_some hfind

theorem agentId_ensurePresence (s : Tables) (agentId : AgentId) (now : Time) :
    (s.ensurePresence agentId now).agentId = agentId := by
  rw [Tables.ensurePresence]
  cases hfind : s.findPresence agentId with
  | none => rfl
  | some presence => simpa using List.find?_some hfind

theorem agentId_expireManualIfNeeded (settings : AgentStatusSettings) (now : Time) :
    (expireManualIfNeeded settings now).agentId = settings.agentId := by
  rw [expireManualIfNeeded]
  split <;> rfl

theorem typing_expireProcessingIfNeeded (activity : Activity) (now : Time) :
    (expireProcessingIfNeeded activity now).typing = activity.typing ∧
      (expireProcessingIfNeeded activity now).typingExpiresAt = activity.typingExpiresAt := by
  rw [expireProcessingIfNeeded]
  split <;> exact ⟨rfl, rfl⟩

theorem agentId_settings (r : Recomputation) : r.settings.agentId = r.agentId :=
  (agentId_expireManualIfNeeded ..).trans (agentId_ensureSettings ..)

theorem agentId_presence (cfg : Config) (r : Recomputation) : (r.presence cfg).agentId = r.agentId :=
  agentId_ensurePresence ..

theorem ensureSettings_recomputed (cfg : Config) (r : Recomputation) :
    (recomputeAndPersist cfg r).tables.ensureSettings r.agentId = r.settings := by
  have hsettings := findSettings_putSettings_self r.tables r.settings
  rw [agentId_settings] at hsettings
  simp only [Tables.ensureSettings, recomputeAndPersist, findSettings_putPresence, hsettings, Option.getD_some]

theorem getSnapshot_recomputed (cfg : Config) (r : Recomputation) :
    (recomputeAndPersist cfg r).tables.getSnapshot r.agentId = some (recomputeAndPersist cfg r).snapshot := by
  have hpresence := findPresence_putPresence_self (r.tables.putSettings r.settings) (r.presence cfg)
  rw [agentId_presence] at hpresence
  rw [Tables.getSnapshot, ensureSettings_recomputed]
  simp only [recomputeAndPersist, hpresence, Option.map_some]

theorem getSnapshot_recomputed_of_ne (cfg : Config) (h : agentId ≠ r.agentId) :
    (recomputeAndPersist cfg r).tables.getSnapshot agentId = r.tables.getSnapshot agentId := by
  have hpresence : agentId ≠ (r.presence cfg).agentId := agentId_presence cfg r ▸ h
  have hsettings : agentId ≠ r.settings.agentId := agentId_settings r ▸ h
  simp only [Tables.getSnapshot, Tables.ensureSettings, recomputeAndPersist, findPresence_putPresence_of_ne hpresence,
    findPresence_putSettings, findSettings_putPresence, findSettings_putSettings_of_ne hsettings]

end Recompute

end BotCord.Presence
