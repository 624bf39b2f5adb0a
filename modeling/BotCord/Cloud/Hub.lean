import BotCord.Cloud.Service

/-!
# Calls of the cloud agent service

Any number of calls for one user, of which each sees in every statement what is committed by then. A row that a session has written is locked until it commits, as is a row that was read FOR UPDATE; the advisory lock of the user is held until the commit too. A row is looked up for an UPDATE by its primary key and gets the values of the object. The index on active daemons makes a write wait for a daemon that is being added, and fail beside another that is active.
-/

namespace BotCord.Cloud

open Delivery (Instant MessageState)

structure Task where
  id : ℕ
  point : Point
  session : Session := {}
  /-- It has the advisory lock. -/
  lock : Bool := false
  /-- The rows that it has locked. -/
  daemonLock : Option DaemonId := none
  agentLocks : List AgentId := []

structure Hub where
  tables : Tables := {}
  online : List DaemonId := []
  now : Instant := 0
  /-- Ids and tokens that were drawn come from earlier steps. -/
  drawn : ℕ := 0
  limits : Limits := {}
  calls : Keyed Task.id := {}

inductive Action
  | create (i : ℕ)
  | delete (i : ℕ) (agentId : AgentId)
  | resume (i : ℕ) (agentId : AgentId)
  | restart (i : ℕ) (id : DaemonId)
  | pause (i : ℕ) (agentId : AgentId)
  | idle (i : ℕ) (id : DaemonId)
  | hello (i : ℕ) (id : DaemonId) (launchToken : Option Token)
  | run (i : ℕ) (agentId : AgentId)
  | send (i : ℕ) (agentId : AgentId)
  /-- A call goes on with what it is told. -/
  | next (i : ℕ) (reply : Reply)
  /-- An exception is raised in a call. -/
  | raise (i : ℕ)
  | abort (i : ℕ)
  /-- The control connection of a daemon comes or goes. -/
  | connect (id : DaemonId) (online : Bool)
  /-- An agent works at a message. -/
  | progress (id : Drawn) (state : MessageState)
  /-- The usage of a run is settled. -/
  | settle (runId : RunId)
  | tick (seconds : ℕ)

namespace Session

variable (s : Session)

def dirtyDaemon : Option DaemonId := (s.daemon.filter fun cdi => s.fresh = false ∧ cdi.Dirty).map (·.loaded.id)

def dirtyAgents : List AgentId := (s.agents.filter (·.Dirty)).map (·.loaded.agentId)

def flush (tables : Tables) : Session :=
  { s with
    daemon := s.daemon.map fun cdi => if s.fresh = false ∧ cdi.Dirty then cdi.flush tables.daemons else cdi
    agents := s.agents.map fun cai => if cai.Dirty then cai.flush tables.agents else cai }

def saveDaemon (daemons : Keyed CloudDaemonInstance.id) : Option (Keyed CloudDaemonInstance.id) :=
  if s.fresh then s.daemon.bind fun cdi => daemons.insert? cdi.current else some (daemons.save s.daemon.toList)

def saveAgents (agents : Keyed CloudAgentInstance.agentId) : Option (Keyed CloudAgentInstance.agentId) :=
  match s.created with
  | none => some (agents.save s.agents)
  | some cai => (agents.save s.agents).insert? cai

def saveKeys (keys : List SigningKey) : List SigningKey :=
  keys.map (fun key => if key ∈ s.revoked then { key with state := .revoked } else key) ++ s.keys

def saveMessages (now : Instant) (messages : Keyed MessageRecord.id) : Option (Keyed MessageRecord.id) :=
  let messages := messages.modify (fun m => some m.receiverId = s.failedChats ∧ m.sourceType = .ownerChat ∧
    (m.state = .queued ∨ m.state = .processing)) fun m => { m with state := .failed, touchedAt := now }
  match s.message with
  | none => some messages
  | some m => messages.insert? m

def saveReservations (reservations : Keyed UsageReservation.runId) : Option (Keyed UsageReservation.runId) :=
  let reservations := reservations.modify (fun r => s.released.contains r.runId ∧ r.state = .active) fun r => { r with state := .released }
  match s.reservation with
  | none => some reservations
  | some r => reservations.insert? r

def publish (now : Instant) (tables : Tables) : Option Tables := do
  let daemons ← s.saveDaemon tables.daemons
  let agents ← s.saveAgents tables.agents
  let messages ← s.saveMessages now tables.messages
  let reservations ← s.saveReservations tables.reservations
  return { daemons, agents, keys := s.saveKeys tables.keys, messages, reservations }

def Claims (daemons : Keyed CloudDaemonInstance.id) : Prop :=
  ∃ cdi ∈ s.daemon, if s.fresh then cdi.current.status.Active
    else ∃ r ∈ daemons.get? cdi.loaded.id, ¬ r.status.Active ∧ (cdi.write r).status.Active
deriving Decidable

def Conflicts (daemons : Keyed CloudDaemonInstance.id) : Prop :=
  ∃ cdi ∈ s.daemon, ∃ r ∈ daemons, r.id ≠ cdi.loaded.id ∧ r.status.Active
deriving Decidable

end Session

def Task.flush (t : Task) (point : Point) (session : Session) (tables : Tables) : Task :=
  { t with
    point
    session := session.flush tables
    daemonLock := session.dirtyDaemon.or t.daemonLock
    agentLocks := session.dirtyAgents ++ t.agentLocks }

namespace Hub

variable (d : Hub) (i : ℕ)

def others : List Task := d.calls.rows.filter (·.id ≠ i)

def world : World where
  tables := d.tables
  online := d.online
  now := d.now
  drawn := d.drawn
  limits := d.limits

def begin (point : Point) : Option Hub := (d.calls.insert? { id := i, point }).map fun calls => { d with calls }

def put (t : Task) : Hub :=
  { d with
    drawn := d.drawn + 1
    calls := d.calls.modify (·.id = t.id) (fun x => { t with id := x.id }) }

def finish : Hub := { d with drawn := d.drawn + 1, calls := d.calls.remove (·.id = i) }

/-- Another call has locked a row that the session writes, or adds a daemon while it makes one active. -/
def Blocked (s : Session) : Prop :=
  ∃ t ∈ d.others i, (∃ id ∈ s.dirtyDaemon, t.daemonLock = some id) ∨ (∃ id ∈ s.dirtyAgents, id ∈ t.agentLocks) ∨
    s.Claims d.tables.daemons ∧ t.session.fresh = true
deriving Decidable

def Refused (s : Session) : Prop := s.Claims d.tables.daemons ∧ s.Conflicts d.tables.daemons
deriving Decidable

/-- A statement has failed: a run gives its reservation back, and other calls end. -/
def refuse (point : Point) : Hub :=
  match point with
  | .resume (.run r) _ => d.put { id := i, point := .run (.release r.runId) }
  | _ => d.finish i

def perform (t : Task) : Outcome → Option Hub
  | .goto point session => some (d.put { t with point, session })
  | .acquire point session =>
    if ∃ x ∈ d.others t.id, x.lock = true then none else some (d.put { t with point, session, lock := true })
  | .select id point session =>
    if ∃ x ∈ d.others t.id, x.daemonLock = some id then none else some (d.put { t with point, session, daemonLock := some id })
  | .flush point session =>
    if d.Blocked t.id session then none
    else if d.Refused session then some (d.refuse t.id t.point)
    else some (d.put (t.flush point session d.tables))
  | .commit point session =>
    if d.Blocked t.id session then none
    else if d.Refused session then some (d.refuse t.id t.point)
    else
      (session.publish d.now d.tables).map fun tables =>
        match point with
        | none => { d with tables }.finish t.id
        | some point => { d with tables }.put { id := t.id, point, session := session.saved }
  | .rollback point => some (d.put { id := t.id, point })
  | .finish => some (d.finish t.id)

end Hub

/-- The calls, beside the daemons that connect and the agents that work. -/
def hub : System Hub Action where
  step d
    | .create i => d.begin i (.create .quota)
    | .delete i agentId => d.begin i (.delete (.load agentId))
    | .resume i agentId => d.begin i (.resume .request (.lock agentId))
    | .restart i id => d.begin i (.restart (.lock id))
    | .pause i agentId => d.begin i (.pause (.load agentId))
    | .idle i id => d.begin i (.idle d.now (.load id))
    | .hello i id launchToken => d.begin i (.hello (.load id launchToken))
    | .run i agentId => d.begin i (.run (.load agentId))
    | .send i agentId => d.begin i (.resume (.send agentId) (.lock agentId))
    | .next i reply =>
      (d.calls.get? i).bind fun t => (t.point.next d.world t.session reply).bind fun outcome => d.perform t outcome
    | .raise i => (d.calls.get? i).bind fun t => d.perform t (t.point.raised t.session)
    | .abort i => (d.calls.get? i).map fun _ => d.finish i
    | .connect id online => some { d with online := if online then id :: d.online.erase id else d.online.erase id }
    | .progress id state =>
      some { d with tables := { d.tables with
        messages := d.tables.messages.modify (fun m => m.id = id ∧ m.state ≠ .done ∧ m.state ≠ .failed) fun m =>
          { m with state, touchedAt := d.now } } }
    | .settle runId =>
      some { d with tables := { d.tables with
        reservations := d.tables.reservations.modify (fun r => r.runId = runId ∧ r.state = .active) fun r =>
          { r with state := .settled } } }
    | .tick seconds => some { d with now := d.now + seconds }

end BotCord.Cloud
