import BotCord.Delivery.Hub
import BotCord.Foundation.Keyed

/-!
# Removing a device

`remove_instance`, `process_pending_daemon_cleanups`, `_finalize_removal_if_drained`, `_push_daemon_revoke` and the handshake of `daemon_control_ws` of `hub/routers/daemon_control.py`, with the unbinding and the provisioning of `app/routers/users.py` that change what they look at. A call reads in one statement and commits in a later one, waits for an ack as long as it likes, and of a row that it loaded writes the columns that it changed. An ack that is late finds nobody waiting. What is scheduled may run at any time, any number of times.
-/

namespace BotCord.Removal

open Delivery (column)

abbrev UserId := String

abbrev AgentId := String

abbrev InstanceId := String

abbrev CleanupId := ℕ

abbrev FrameId := ℕ

abbrev ConnId := ℕ

/-- Seconds. -/
abbrev Instant := ℕ

inductive AgentStatus
  | active | deleted
deriving DecidableEq

structure Agent where
  agentId : AgentId
  userId : Option UserId := none
  status : AgentStatus := .active
  daemonInstanceId : Option InstanceId := none

structure DaemonInstance where
  id : InstanceId
  userId : UserId
  removalRequestedAt : Option Instant := none
  cleanupCompletedAt : Option Instant := none
  revokedAt : Option Instant := none

inductive CleanupStatus
  | pending | succeeded | failed | cancelled
deriving DecidableEq

structure DaemonAgentCleanup where
  id : CleanupId
  daemonInstanceId : InstanceId
  agentId : AgentId
  status : CleanupStatus := .pending
  attempts : ℕ := 0
  lastError : Option String := none
  completedAt : Option Instant := none

/-- A field of the error that a daemon answers: a text, nothing that Python takes for true, or something else. -/
inductive AckField
  | text (text : String)
  | falsy
  | truthy
deriving DecidableEq

inductive Ack
  | ok
  | error (message code : AckField)
deriving DecidableEq

def cleanupErrorMessage (message code : AckField) : String :=
  match if message = .falsy ∨ message = .text "" then code else message with
  | .text text => if text = "" then "daemon cleanup failed" else String.ofList (text.toList.take 1000)
  | .falsy | .truthy => "daemon cleanup failed"

namespace Agent

variable (a : Agent)

def detach : Agent := { a with daemonInstanceId := none }

/-- `_unbind_agent_from_user`, of the row that was loaded. -/
def unbind (loaded : Agent) : Agent :=
  { a with
    userId := column loaded.userId none a.userId
    daemonInstanceId := column loaded.daemonInstanceId none a.daemonInstanceId }

def bind (userId : UserId) (daemonInstanceId : InstanceId) : Agent :=
  { a with userId := some userId, daemonInstanceId := some daemonInstanceId }

theorem agentId_detach : a.detach.agentId = a.agentId := rfl

theorem agentId_unbind (loaded : Agent) : (a.unbind loaded).agentId = a.agentId := rfl

theorem agentId_bind (userId : UserId) (daemonInstanceId : InstanceId) : (a.bind userId daemonInstanceId).agentId = a.agentId :=
  rfl

end Agent

namespace DaemonInstance

variable (x loaded : DaemonInstance) (now : Instant)

/-- `_mark_instance_revoked`, with the end of the cleanup. -/
def revoke : DaemonInstance :=
  { x with
    cleanupCompletedAt := column loaded.cleanupCompletedAt (some now) x.cleanupCompletedAt
    revokedAt := if loaded.revokedAt = none then some now else x.revokedAt }

/-- A removal is requested, and the device revoked if it is forgotten. -/
def remove (forget : Bool) : DaemonInstance :=
  let x := { x with removalRequestedAt := if loaded.removalRequestedAt = none then some now else x.removalRequestedAt }
  if forget then x.revoke loaded now else x

theorem id_revoke : (x.revoke loaded now).id = x.id := rfl

theorem id_remove (forget : Bool) : (x.remove loaded now forget).id = x.id := by
  cases forget <;> rfl

end DaemonInstance

namespace DaemonAgentCleanup

variable (c loaded : DaemonAgentCleanup) (now : Instant)

def complete (status : CleanupStatus) (lastError : Option String) : DaemonAgentCleanup :=
  { c with
    status, completedAt := column loaded.completedAt (some now) c.completedAt
    lastError := column loaded.lastError lastError c.lastError }

def forget : DaemonAgentCleanup := c.complete loaded now .cancelled (some "device forgotten before local cleanup")

def rebound : DaemonAgentCleanup := c.complete loaded now .cancelled (some "agent rebound before cleanup")

/-- What an ack makes of the row. -/
def answer : Ack → DaemonAgentCleanup
  | .ok => { c.complete loaded now .succeeded none with attempts := loaded.attempts + 1 }
  | .error message code =>
    { c with
      attempts := loaded.attempts + 1
      lastError := column loaded.lastError (some (cleanupErrorMessage message code)) c.lastError }

/-- No ack came: a timeout, a disconnect, or a frame that could not be sent. -/
def retry (detail : String) : DaemonAgentCleanup :=
  { c with
    attempts := loaded.attempts + 1, lastError := column loaded.lastError (some (String.ofList (detail.toList.take 1000))) c.lastError }

theorem id_rebound : (c.rebound loaded now).id = c.id := rfl

theorem id_answer (ack : Ack) : (c.answer loaded now ack).id = c.id := by
  cases ack <;> rfl

theorem id_retry (detail : String) : (c.retry loaded detail).id = c.id := rfl

end DaemonAgentCleanup

/-- What is committed. -/
structure Store where
  now : Instant := 0
  agents : Keyed Agent.agentId := {}
  instances : Keyed DaemonInstance.id := {}
  /-- The order of creation. -/
  cleanups : Keyed DaemonAgentCleanup.id := {}
  drawn : CleanupId := 0

namespace Store

variable (s : Store) (daemonInstanceId : InstanceId) (agentId : AgentId)

def Bound : Prop := ∃ a ∈ s.agents, a.agentId = agentId ∧ a.daemonInstanceId = some daemonInstanceId
deriving Decidable

def Revoked : Prop := ∃ x ∈ s.instances, x.id = daemonInstanceId ∧ x.revokedAt ≠ none
deriving Decidable

def hosted (userId : UserId) : List AgentId :=
  (s.agents.rows.filter fun a => a.userId = some userId ∧ a.daemonInstanceId = some daemonInstanceId ∧ a.status = .active).map
    Agent.agentId

def pending : List DaemonAgentCleanup :=
  s.cleanups.rows.filter fun c => c.daemonInstanceId = daemonInstanceId ∧ c.status = .pending

/-- Cleanup rows are inserted, as `f` makes them. -/
def enqueue (f : DaemonAgentCleanup → DaemonAgentCleanup) : List AgentId → Store → Option Store
  | [], s => some s
  | agentId :: rest, s =>
    (s.cleanups.insert? (f { id := s.drawn, daemonInstanceId, agentId })).bind fun cleanups =>
      enqueue f rest { s with cleanups, drawn := s.drawn + 1 }

end Store

structure RemoveInstance where
  loaded : DaemonInstance
  /-- The device is offline, and to be forgotten then. -/
  forget : Bool
  agents : List AgentId := []
  pendingAgentIds : List AgentId := []
  pendingRows : List DaemonAgentCleanup := []

namespace RemoveInstance

variable (r : RemoveInstance) (s : Store)

/-- The agents that a cleanup row is inserted for. -/
def queued : List AgentId := r.agents.filter (· ∉ r.pendingAgentIds)

/-- A row as it is inserted, in a session that cancels it again if the device is forgotten. -/
def insert (now : Instant) (c : DaemonAgentCleanup) : DaemonAgentCleanup := if r.forget then c.forget c now else c

def forgetRow (now : Instant) (c : DaemonAgentCleanup) : DaemonAgentCleanup :=
  match r.pendingRows.find? (·.id = c.id) with
  | none => c
  | some loaded => c.forget loaded now

theorem id_forgetRow (now : Instant) (c : DaemonAgentCleanup) : (r.forgetRow now c).id = c.id := by
  unfold forgetRow
  split <;> rfl

/-- What a removal commits. -/
def commit : Option Store :=
  (Store.enqueue r.loaded.id (r.insert s.now) r.queued
      { s with
        agents := s.agents.modify (·.agentId ∈ r.agents) Agent.detach Agent.agentId_detach
        cleanups := s.cleanups.modify (fun _ => True) (r.forgetRow s.now) (r.id_forgetRow s.now) }).map fun s' =>
    { s' with
      instances := s'.instances.modify (·.id = r.loaded.id) (·.remove r.loaded s.now r.forget)
        fun x => x.id_remove r.loaded s.now r.forget }

end RemoveInstance

inductive Call
  /-- `remove_instance`: the registry, the hosted agents, their pending rows, those of the device if it is forgotten, and the commit. -/
  | removeInstance (loaded : DaemonInstance) (forgetIfOffline : Bool)
  | removeHosted (r : RemoveInstance)
  | removePending (r : RemoveInstance)
  | removeForget (r : RemoveInstance)
  | removeCommit (r : RemoveInstance)
  | unbind (loaded : Agent)
  | provisionAgent (daemonInstanceId : InstanceId) (userId : UserId) (agentId : AgentId)
  | provisionSend (daemonInstanceId : InstanceId) (userId : UserId) (agentId : AgentId)
  | provisionWait (daemonInstanceId : InstanceId) (userId : UserId) (agentId : AgentId)
  | provisionCommit (daemonInstanceId : InstanceId) (userId : UserId) (agentId : AgentId)
  /-- `process_pending_daemon_cleanups` before its next row. -/
  | drain (daemonInstanceId : InstanceId) (rows : List DaemonAgentCleanup)
  | stillApplies (daemonInstanceId : InstanceId) (row : DaemonAgentCleanup) (rest : List DaemonAgentCleanup)
  | rebound (daemonInstanceId : InstanceId) (row : DaemonAgentCleanup) (rest : List DaemonAgentCleanup)
  | send (daemonInstanceId : InstanceId) (row : DaemonAgentCleanup) (rest : List DaemonAgentCleanup)
  | wait (daemonInstanceId : InstanceId) (row : DaemonAgentCleanup) (rest : List DaemonAgentCleanup) (frame : FrameId)
  | acked (daemonInstanceId : InstanceId) (row : DaemonAgentCleanup) (rest : List DaemonAgentCleanup) (ack : Ack)
  | answer (daemonInstanceId : InstanceId) (row : DaemonAgentCleanup) (rest : List DaemonAgentCleanup) (ack : Ack)
  | failed (daemonInstanceId : InstanceId) (row : DaemonAgentCleanup) (rest : List DaemonAgentCleanup) (detail : String)
  | retry (daemonInstanceId : InstanceId) (row : DaemonAgentCleanup) (rest : List DaemonAgentCleanup) (detail : String)
  /-- `_finalize_removal_if_drained`. -/
  | finalize (daemonInstanceId : InstanceId)
  | finalizeCount (loaded : DaemonInstance)
  | finalizeCommit (loaded : DaemonInstance)
  /-- `_push_daemon_revoke`. -/
  | push (daemonInstanceId : InstanceId)
  | close (daemonInstanceId : InstanceId) (conn : ConnId)
  /-- The handshake of a socket, once it has found its instance not revoked. -/
  | handshake (daemonInstanceId : InstanceId)

structure Request where
  id : ℕ
  call : Call

def Request.goto (r : Request) (call : Call) : Request := { r with call }

theorem Request.id_goto (call : Call) (r : Request) : (r.goto call).id = r.id := rfl

inductive Event
  /-- A cleanup sends `revoke_agent`. -/
  | sent (frame : FrameId) (daemonInstanceId : InstanceId) (agentId : AgentId)
  | acked (frame : FrameId) (ack : Ack)

structure Hub where
  store : Store := {}
  /-- `_REGISTRY`. -/
  registry : InstanceId → Option ConnId := fun _ => none
  /-- Frames and connections that were made are below. -/
  drawn : ℕ := 0
  /-- What was sent and answered, the latest first. -/
  log : List Event := []
  calls : Keyed Request.id := {}

inductive Action
  | tick (seconds : ℕ)
  /-- An agent without a device is bound to one. -/
  | bindAgent (userId : UserId) (agentId : AgentId) (daemonInstanceId : InstanceId)
  | removeInstance (i : ℕ) (userId : UserId) (daemonInstanceId : InstanceId) (forgetIfOffline : Bool)
  | unbindAgent (i : ℕ) (userId : UserId) (agentId : AgentId)
  | provisionAgent (i : ℕ) (userId : UserId) (daemonInstanceId : InstanceId) (agentId : AgentId)
  | processPendingDaemonCleanups (i : ℕ) (daemonInstanceId : InstanceId)
  | connect (i : ℕ) (daemonInstanceId : InstanceId)
  | disconnect (daemonInstanceId : InstanceId)
  /-- The next statement of a call. -/
  | next (i : ℕ)
  | ack (i : ℕ) (ack : Ack)
  /-- A call gets no ack. -/
  | fail (i : ℕ) (detail : String)

namespace Hub

variable (d : Hub) (i : ℕ)

def begin (call : Call) : Option Hub := (d.calls.insert? ⟨i, call⟩).map fun calls => { d with calls }

def goto (call : Call) : Hub := { d with calls := d.calls.modify (·.id = i) (·.goto call) (Request.id_goto call) }

def finish : Hub := { d with calls := d.calls.remove (·.id = i) }

/-- A write is committed, and the call goes on. -/
def commit (s : Store) (call : Call) : Hub := { d with store := s }.goto i call

def register (daemonInstanceId : InstanceId) (conn : Option ConnId) : Hub :=
  { d with registry := Function.update d.registry daemonInstanceId conn }

end Hub

namespace Store

variable (s : Store) (daemonInstanceId : InstanceId)

def write (id : CleanupId) (f : DaemonAgentCleanup → DaemonAgentCleanup) (hf : ∀ c, (f c).id = c.id) : Store :=
  { s with cleanups := s.cleanups.modify (·.id = id) f hf }

def current (row : DaemonAgentCleanup) : Option DaemonAgentCleanup := (s.cleanups.get? row.id).filter (·.status = .pending)

/-- `_unbind_agent_from_user`, with `_enqueue_daemon_agent_cleanup`. -/
def unbind (loaded : Agent) : Option Store :=
  let s := { s with
    agents := s.agents.modify (·.agentId = loaded.agentId) (·.unbind loaded) fun a => a.agentId_unbind loaded }
  match loaded.daemonInstanceId.filter (· ≠ "") with
  | none => some s
  | some daemonInstanceId => enqueue daemonInstanceId id [loaded.agentId] s

def provision (userId : UserId) (agentId : AgentId) : Option Store :=
  (s.agents.insert? { agentId, userId := some userId, daemonInstanceId := some daemonInstanceId }).map fun agents =>
    { s with agents }

def revoke (loaded : DaemonInstance) : Store :=
  { s with
    instances := s.instances.modify (·.id = loaded.id) (·.revoke loaded s.now) fun x => x.id_revoke loaded s.now }

end Store

/-- The next statement of a call. -/
def Hub.next (d : Hub) (i : ℕ) : Call → Option Hub
  | .removeInstance loaded forgetIfOffline =>
    some (d.goto i (.removeHosted { loaded, forget := forgetIfOffline && (d.registry loaded.id).isNone }))
  | .removeHosted r => some (d.goto i (.removePending { r with agents := d.store.hosted r.loaded.id r.loaded.userId }))
  | .removePending r =>
    let r := { r with
      pendingAgentIds := ((d.store.pending r.loaded.id).map DaemonAgentCleanup.agentId).filter (· ∈ r.agents) }
    some (d.goto i (if r.forget then .removeForget r else .removeCommit r))
  | .removeForget r =>
    some (d.goto i (.removeCommit { r with pendingRows := d.store.pending r.loaded.id }))
  | .removeCommit r =>
    (r.commit d.store).map fun s => if r.forget then d.commit i s (.push r.loaded.id) else { d with store := s }.finish i
  | .unbind loaded => (d.store.unbind loaded).map fun s => { d with store := s }.finish i
  | .provisionAgent daemonInstanceId userId agentId =>
    if d.registry daemonInstanceId = none ∨ ∃ a ∈ d.store.agents, a.agentId = agentId then some (d.finish i)
    else some (d.goto i (.provisionSend daemonInstanceId userId agentId))
  | .provisionSend daemonInstanceId userId agentId =>
    if d.registry daemonInstanceId = none then some (d.finish i)
    else some (d.goto i (.provisionWait daemonInstanceId userId agentId))
  | .provisionCommit daemonInstanceId userId agentId =>
    (d.store.provision daemonInstanceId userId agentId).map fun s => { d with store := s }.finish i
  | .drain daemonInstanceId [] => some (d.goto i (.finalize daemonInstanceId))
  | .drain daemonInstanceId (row :: rest) =>
    match d.store.current row with
    | none => some (d.goto i (.drain daemonInstanceId rest))
    | some row => some (d.goto i (.stillApplies daemonInstanceId row rest))
  | .stillApplies daemonInstanceId row rest =>
    if d.store.Bound row.daemonInstanceId row.agentId then some (d.goto i (.rebound daemonInstanceId row rest))
    else some (d.goto i (.send daemonInstanceId row rest))
  | .rebound daemonInstanceId row rest =>
    some (d.commit i (d.store.write row.id (·.rebound row d.store.now) fun c => c.id_rebound row d.store.now) (.drain daemonInstanceId rest))
  | .send daemonInstanceId row rest =>
    if d.registry daemonInstanceId = none then some (d.finish i)
    else
      some ({ d with drawn := d.drawn + 1, log := .sent d.drawn daemonInstanceId row.agentId :: d.log }.goto i
        (.wait daemonInstanceId row rest d.drawn))
  | .acked daemonInstanceId row rest ack =>
    match d.store.current row with
    | none => some (d.goto i (.drain daemonInstanceId rest))
    | some row => some (d.goto i (.answer daemonInstanceId row rest ack))
  | .answer daemonInstanceId row rest ack =>
    some (d.commit i (d.store.write row.id (·.answer row d.store.now ack) fun c => c.id_answer row d.store.now ack)
      (.drain daemonInstanceId rest))
  | .failed daemonInstanceId row rest detail =>
    match d.store.current row with
    | none => some (d.goto i (.drain daemonInstanceId rest))
    | some row => some (d.goto i (.retry daemonInstanceId row rest detail))
  | .retry daemonInstanceId row rest detail =>
    some (d.commit i (d.store.write row.id (·.retry row detail) fun c => c.id_retry row detail) (.drain daemonInstanceId rest))
  | .finalize daemonInstanceId =>
    match (d.store.instances.get? daemonInstanceId).filter fun x => x.removalRequestedAt ≠ none ∧ x.revokedAt = none with
    | none => some (d.finish i)
    | some loaded => some (d.goto i (.finalizeCount loaded))
  | .finalizeCount loaded =>
    if d.store.pending loaded.id = [] then some (d.goto i (.finalizeCommit loaded)) else some (d.finish i)
  | .finalizeCommit loaded => some (d.commit i (d.store.revoke loaded) (.push loaded.id))
  | .push daemonInstanceId =>
    match d.registry daemonInstanceId with
    | none => some (d.finish i)
    | some conn => some (d.goto i (.close daemonInstanceId conn))
  | .close daemonInstanceId conn =>
    let d' := if d.registry daemonInstanceId = some conn then d.register daemonInstanceId none else d
    some (d'.finish i)
  | .handshake daemonInstanceId =>
    some (({ d with drawn := d.drawn + 1 }.register daemonInstanceId (some d.drawn)).finish i)
  | .provisionWait .. | .wait .. => none

/-- An ack of the daemon, where a call waits for it. -/
def Hub.ack (d : Hub) (i : ℕ) (ack : Ack) : Call → Option Hub
  | .provisionWait daemonInstanceId userId agentId =>
    some (if ack = .ok then d.goto i (.provisionCommit daemonInstanceId userId agentId) else d.finish i)
  | .wait daemonInstanceId row rest frame =>
    some ({ d with log := .acked frame ack :: d.log }.goto i (.acked daemonInstanceId row rest ack))
  | _ => none

def Hub.fail (d : Hub) (i : ℕ) (detail : String) : Call → Option Hub
  | .provisionWait .. => some (d.finish i)
  | .wait daemonInstanceId row rest _ => some (d.goto i (.failed daemonInstanceId row rest detail))
  | _ => none

def Store.ownedInstance (s : Store) (userId : UserId) (daemonInstanceId : InstanceId) : Option DaemonInstance :=
  (s.instances.get? daemonInstanceId).filter fun x => x.userId = userId ∧ x.revokedAt = none

/-- The Hub with any number of calls; one that is refused does not begin or ends. -/
def hub : System Hub Action where
  step d
    | .tick seconds => some { d with store := { d.store with now := d.store.now + seconds } }
    | .bindAgent userId agentId daemonInstanceId =>
      if ∃ a ∈ d.store.agents, a.agentId = agentId ∧ a.daemonInstanceId = none then
        some { d with
          store := { d.store with
            agents := d.store.agents.modify (·.agentId = agentId) (·.bind userId daemonInstanceId) fun a =>
              a.agentId_bind userId daemonInstanceId } }
      else none
    | .removeInstance i userId daemonInstanceId forgetIfOffline =>
      (d.store.ownedInstance userId daemonInstanceId).bind fun x => d.begin i (.removeInstance x forgetIfOffline)
    | .unbindAgent i userId agentId =>
      ((d.store.agents.get? agentId).filter fun a => a.userId = some userId ∧ a.status = .active).bind fun a =>
        d.begin i (.unbind a)
    | .provisionAgent i userId daemonInstanceId agentId =>
      (d.store.ownedInstance userId daemonInstanceId).bind fun _ => d.begin i (.provisionAgent daemonInstanceId userId agentId)
    | .processPendingDaemonCleanups i daemonInstanceId =>
      d.begin i (.drain daemonInstanceId ((d.store.pending daemonInstanceId).take 50))
    | .connect i daemonInstanceId =>
      ((d.store.instances.get? daemonInstanceId).filter (·.revokedAt = none)).bind fun _ =>
        d.begin i (.handshake daemonInstanceId)
    | .disconnect daemonInstanceId => some (d.register daemonInstanceId none)
    | .next i => (d.calls.get? i).bind fun r => d.next i r.call
    | .ack i ack => (d.calls.get? i).bind fun r => d.ack i ack r.call
    | .fail i detail => (d.calls.get? i).bind fun r => d.fail i detail r.call

end BotCord.Removal
