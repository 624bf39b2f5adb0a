import BotCord.Cloud.Rows

/-!
# Sessions of the cloud agent service

The tables of one user, what a call sees of them and what its session holds, and the points at which a call of `hub/services/cloud_agent.py` can be. From a point it goes on to another, flushes, commits or ends.
-/

namespace BotCord.Cloud

open Delivery (Instant MessageState)
open Keys (KeyState)
open Usage (ReservationState)

structure Tables where
  daemons : Keyed CloudDaemonInstance.id := {}
  agents : Keyed CloudAgentInstance.agentId := {}
  keys : List SigningKey := []
  messages : Keyed MessageRecord.id := {}
  reservations : Keyed UsageReservation.runId := {}

/-- What is configured. -/
structure Limits where
  provider : String := "e2b"
  maxPerUser : ℕ := 5
  maxAgentsPerDaemon : ℕ := 5
  idleSeconds : ℕ := 300
  ownerChatRunLeaseSeconds : ℕ := 1860

structure World where
  tables : Tables
  /-- The daemons with a control connection. -/
  online : List DaemonId
  now : Instant
  drawn : ℕ
  limits : Limits

namespace World

variable (w : World)

def fresh (k : ℕ) : Drawn := (w.drawn, k)

/-- `_enforce_per_user_quota` refuses. -/
def QuotaExceeded : Prop := w.limits.maxPerUser ≤ w.tables.agents.count (·.status ≠ .deleted)
deriving Decidable

/-- The active daemon. An index holds that there is at most one. -/
def activeDaemon? : Option CloudDaemonInstance := w.tables.daemons.rows.find? (·.status.Active)

/-- `_load_owned`. -/
def loadOwned (agentId : AgentId) : Option (CloudAgentInstance × CloudDaemonInstance) :=
  (w.tables.agents.get? agentId).bind fun cai =>
    (w.tables.daemons.get? cai.cloudDaemonInstanceId).map fun cdi => (cai, cdi)

def agentsOf (id : DaemonId) (p : AgentStatus → Prop) [DecidablePred p] : List CloudAgentInstance :=
  w.tables.agents.rows.filter fun cai => cai.cloudDaemonInstanceId = id ∧ p cai.status

def activeKeys (agentId : AgentId) : List SigningKey :=
  w.tables.keys.filter fun key : SigningKey => key.agentId = agentId ∧ key.state = .active

/-- The runs whose reservations `release_for_agent` releases. -/
def activeRuns (agentId : AgentId) : List RunId :=
  (w.tables.reservations.rows.filter fun r : UsageReservation => r.agentId = agentId ∧ r.state = .active).map
    UsageReservation.runId

/-- `_ensure_no_other_active_cloud_daemon` refuses. -/
def OtherActive (id : DaemonId) : Prop := ∃ r ∈ w.tables.daemons, r.id ≠ id ∧ r.status.Active
deriving Decidable

def Hosts (id : DaemonId) (agentId : AgentId) : Prop := ∃ cai ∈ w.tables.agents, cai.cloudDaemonInstanceId = id ∧ cai.agentId = agentId
deriving Decidable

/-- The first query of `_cloud_daemon_has_active_run`. -/
def ActiveReservation (id : DaemonId) : Prop := ∃ r ∈ w.tables.reservations, r.state = .active ∧ w.Hosts id r.agentId
deriving Decidable

def ActiveChat (now : Instant) (m : MessageRecord) : Prop :=
  m.sourceType = .ownerChat ∧ (m.state = .queued ∨ m.state = .processing ∨
    (m.state = .delivered ∨ m.state = .acked) ∧ now ≤ m.touchedAt + w.limits.ownerChatRunLeaseSeconds)
deriving Decidable

end World

def MessageRecord.ActiveRun (m : MessageRecord) : Prop := m.sourceType = .cloudAgentRun ∧ m.state ≠ .done ∧ m.state ≠ .failed
deriving Decidable

namespace World

variable (w : World)

/-- The second query of `_cloud_daemon_has_active_run`, with the owner chats as of `now` if they are included. -/
def ActiveMessage (id : DaemonId) (ownerChatInbox : Option Instant) : Prop :=
  ∃ m ∈ w.tables.messages, (m.ActiveRun ∨ ∃ now ∈ ownerChatInbox, w.ActiveChat now m) ∧ w.Hosts id m.receiverId
deriving Decidable

/-- `_cloud_daemon_has_launch_tagged_provisioning`. -/
def TaggedProvisioning (id : DaemonId) (launchToken : Token) : Prop :=
  ∃ cai ∈ w.tables.agents, cai.cloudDaemonInstanceId = id ∧ cai.status = .provisioning ∧
    cai.provisioning.bind Provisioning.launchToken = some launchToken
deriving Decidable

end World

/-- The objects of a call, and what it has added and not committed. -/
structure Session where
  daemon : Option CloudDaemon := none
  /-- The daemon is added. -/
  fresh : Bool := false
  /-- The agent that the call is about comes first. -/
  agents : List CloudAgent := []
  created : Option CloudAgentInstance := none
  keys : List SigningKey := []
  revoked : List SigningKey := []
  reservation : Option UsageReservation := none
  message : Option MessageRecord := none
  released : List RunId := []
  /-- `_fail_pending_owner_chat_messages`. -/
  failedChats : Option AgentId := none

namespace Session

variable (s : Session)

def setDaemon (f : CloudDaemon → CloudDaemon) : Session := { s with daemon := s.daemon.map f }

def setAgents (f : CloudAgent → CloudAgent) : Session := { s with agents := s.agents.map f }

/-- Before an added row is committed nobody sees it but as it is in the end. -/
def setCreated (f : CloudAgent → CloudAgent) : Session := { s with created := s.created.map fun r => (f (.load _ r)).current }

def saved : Session where
  daemon := s.daemon.map Object.saved
  agents := (s.created.toList.map (.load _)) ++ s.agents.map Object.saved

end Session

inductive Reply
  | proceed
  | handle (handle : CloudDaemonHandle)
  | raised (message : String)
  /-- The agents that the daemon has, or the code of the failure. -/
  | listed (answer : Except String (List AgentId))
  | installed
  /-- The daemon has rejected it, or could not be reached. -/
  | notInstalled (code message : String)

structure Run where
  runId : RunId
  agentId : AgentId

/-- Who calls `resume_cloud_agent`: a request, a run or a message of an owner chat. -/
inductive Caller
  | request
  | run (r : Run)
  | send (agentId : AgentId)

structure Relaunch where
  launchToken : Token
  daemon : CloudDaemonInstance
  agents : List CloudAgentInstance
  /-- It is for an agent that is being created. -/
  creating : Bool

/-- A handshake: the token of the connection, what was pending, and the agents that the daemon has. -/
structure Hello where
  launchToken : Option Token
  pending : Option Token
  live : Option (List AgentId) := none

inductive CreatePoint
  | quota | lock | recheck | pick | row (id : DaemonId) | capacity | insert | agent | start | prepare | provider

inductive DeletePoint
  | load (agentId : AgentId) | mark | keys | count | revoke | cleanup

inductive ResumePoint
  | lock (agentId : AgentId) | load (agentId : AgentId) | probe | provision | install | other | start | provider

inductive RestartPoint
  | lock (id : DaemonId) | load (id : DaemonId) | reservations | messages | other | agents | prepare

inductive PausePoint
  | load (agentId : AgentId) | flush | peers | provider

inductive IdlePoint
  | load (id : DaemonId) | agents | reservations | messages | provider

inductive HelloPoint
  | load (id : DaemonId) (launchToken : Option Token)
  | probe (h : Hello) | rows (h : Hello) (includeReady : Bool) | row (h : Hello) | provision (h : Hello)
  | install (h : Hello) | refresh (h : Hello) | tagged (h : Hello) | promote (h : Hello)

inductive RunPoint
  | load (agentId : AgentId) | reserve (agentId : AgentId) | room (r : Run) | insert (r : Run) | release (runId : RunId)

inductive Point
  | create (p : CreatePoint)
  | relaunch (r : Relaunch)
  | delete (p : DeletePoint)
  | resume (caller : Caller) (p : ResumePoint)
  | restart (p : RestartPoint)
  | pause (p : PausePoint)
  /-- The sweep has taken the time once. -/
  | idle (now : Instant) (p : IdlePoint)
  | hello (p : HelloPoint)
  | run (p : RunPoint)
  | send (agentId : AgentId)

inductive Outcome
  | goto (point : Point) (s : Session)
  /-- It takes the advisory lock. -/
  | acquire (point : Point) (s : Session)
  /-- It has read a daemon FOR UPDATE. -/
  | select (id : DaemonId) (point : Point) (s : Session)
  | flush (point : Point) (s : Session)
  /-- It commits, and goes on or ends. -/
  | commit (point : Option Point) (s : Session)
  | rollback (point : Point)
  | finish

end BotCord.Cloud
