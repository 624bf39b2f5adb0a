import BotCord.Cloud.Session

/-!
# The cloud agent service

`create_cloud_agent`, `delete_cloud_agent`, `resume_cloud_agent`, `restart_cloud_daemon`, `pause_cloud_agent`, `pause_idle_cloud_daemons`, `provision_pending_for_cloud_daemon` and `create_run` of `hub/services/cloud_agent.py`, from point to point: what a call reads there or is told, and what it does then. A refusal that rests on other tables (the runtimes of the daemon, the credential and the balance of the user, the room of a run) is an exception, which can be raised at any point.
-/

namespace BotCord.Cloud

open Delivery (Instant MessageState)

variable (w : World) (s : Session)

/-- The objects of a call about one agent. -/
def Session.rows (f : CloudAgent → CloudDaemon → Option Outcome) : Option Outcome :=
  match s.agents, s.daemon with
  | cai :: _, some cdi => f cai cdi
  | _, _ => some .finish

def Session.cdi (f : CloudDaemon → Option Outcome) : Option Outcome :=
  match s.daemon with
  | some cdi => f cdi
  | none => some .finish

variable {s} in
theorem Session.rows_eq_some {f : CloudAgent → CloudDaemon → Option Outcome} {outcome : Outcome} (h : s.rows f = some outcome) :
    outcome = .finish ∨ ∃ cai rest cdi, s.agents = cai :: rest ∧ s.daemon = some cdi ∧ f cai cdi = some outcome := by
  unfold Session.rows at h
  split at h
  · rename_i cai rest cdi hagents hdaemon
    exact .inr ⟨cai, rest, cdi, hagents, hdaemon, h⟩
  · exact .inl (Option.some.inj h).symm

variable {s} in
theorem Session.cdi_eq_some {f : CloudDaemon → Option Outcome} {outcome : Outcome} (h : s.cdi f = some outcome) :
    outcome = .finish ∨ ∃ cdi, s.daemon = some cdi ∧ f cdi = some outcome := by
  unfold Session.cdi at h
  split at h
  · rename_i cdi hdaemon
    exact .inr ⟨cdi, hdaemon, h⟩
  · exact .inl (Option.some.inj h).symm

def Session.setAgent (f : CloudAgent → CloudAgent) : Session :=
  match s.agents with
  | cai :: rest => { s with agents := f cai :: rest }
  | [] => s

def Session.loadRows (cai : CloudAgentInstance) (cdi : CloudDaemonInstance) : Session :=
  { s with agents := [.load _ cai], daemon := some (.load _ cdi) }

/-- The row of a daemon that `_allocate_or_create_cloud_daemon` adds. -/
def newDaemon : CloudDaemonInstance where
  id := w.fresh 0
  provider := w.limits.provider
  maxAgents := w.limits.maxAgentsPerDaemon
  createdAt := w.now

def newAgent (id : DaemonId) : CloudAgentInstance where
  agentId := w.fresh 0
  cloudDaemonInstanceId := id
  createdAt := w.now
  provisioning := some { credentials := some ⟨w.fresh 1, w.fresh 1⟩ }
  agentToken := some (w.fresh 2)

def createCloudAgent : CreatePoint → Reply → Option Outcome
  | .quota, .proceed => some (if w.QuotaExceeded then .finish else .goto (.create .lock) s)
  | .lock, .proceed => some (.acquire (.create .recheck) s)
  | .recheck, .proceed => some (if w.QuotaExceeded then .finish else .goto (.create .pick) s)
  | .pick, .proceed =>
    some (match w.activeDaemon? with
      | some candidate => .goto (.create (.row candidate.id)) s
      | none => .goto (.create .insert) s)
  | .row id, .proceed =>
    -- Once the SELECT has the lock of the row it looks at it again.
    some (match (w.tables.daemons.get? id).filter (·.status.Active) with
      | none => .goto (.create .insert) s
      | some candidate => .select id (.create .capacity) { s with daemon := some (.load _ candidate) })
  | .capacity, .proceed => s.cdi fun cdi =>
    some (if cdi.current.maxAgents ≤ cdi.current.activeAgentCount then .finish else .goto (.create .agent) s)
  | .insert, .proceed => some (.flush (.create .agent) { s with daemon := some (.load _ (newDaemon w)), fresh := true })
  | .agent, .proceed => s.cdi fun cdi =>
    some (.flush (.create .start)
      { s with
        daemon := some (cdi.set fun r => { r with activeAgentCount := r.activeAgentCount + 1 })
        created := some (newAgent w cdi.current.id)
        keys := [{ agentId := w.fresh 0, keyId := w.fresh 1, keyPair := w.fresh 1 }] })
  | .start, .proceed => s.cdi fun cdi =>
    some (if cdi.current.id ∈ w.online then
      .goto (.create .prepare) { s with agents := (w.agentsOf cdi.current.id AgentStatus.Live).map (.load _) }
    else .goto (.create .provider) s)
  | .prepare, .proceed => s.cdi fun cdi =>
    let launchToken := w.fresh 0
    let relaunch := { launchToken, daemon := cdi.current, agents := s.agents.map Object.current, creating := true }
    some (.commit (some (.relaunch relaunch))
      ({ s with
        daemon := some ((beginRelaunch cdi launchToken).set fun r =>
          { r with status := .starting, errorCode := none, errorMessage := none }) }.setCreated fun cai =>
            (tagProvisioning cai launchToken).set fun r => { r with status := .provisioning }))
  | .provider, .raised message => s.cdi fun cdi =>
    some (.commit none
      ({ s with
        daemon := some (cdi.set fun r =>
          { r with status := .failed, errorCode := some "provider_create_failed", errorMessage := some message }) }.setCreated
            (setStatus · .failed (some "provider_create_failed") (some message))))
  | .provider, .handle handle => s.cdi fun cdi =>
    let cdi := applyHandleToRows cdi handle w.now
    let cdi := if handle.status = .starting then cdi.set fun r => { r with lastStartedAt := some w.now } else cdi
    some (.commit none ({ s with daemon := some cdi }.setCreated fun cai =>
      if handle.status = DaemonStatus.ready then scrubProvisioningMetadata (cai.set fun r => { r with status := .ready })
      else if handle.status = DaemonStatus.failed then
        scrubProvisioningMetadata (setStatus cai .failed handle.errorCode handle.errorMessage)
      else cai))
  | _, _ => none

/-- A launch has failed: what is left of it is put back. The agent that was being created has failed too. -/
def undoRelaunch (r : Relaunch) (errorCode errorMessage : Option String) : Session :=
  { s with
    daemon := s.daemon.map fun cdi => clearPendingLaunch (restoreCloudDaemonState cdi r.daemon)
    agents := s.agents.map fun cai =>
      match r.agents.find? (·.agentId = cai.current.agentId) with
      | some state => restoreCloudAgentState cai state
      | none => if r.creating then scrubProvisioningMetadata (setStatus cai .failed errorCode errorMessage) else cai }

/-- `create_cloud_agent` on an online daemon and `restart_cloud_daemon`, after they have committed what they prepared. -/
def relaunchCloudDaemon (r : Relaunch) : Reply → Option Outcome
  | .raised message => some (.commit none (undoRelaunch s r (some "provider_create_failed") (some message)))
  | .handle handle =>
    let s := s.setDaemon fun cdi =>
      let cdi := applyHandleToRows cdi handle w.now
      if handle.status = .starting ∨ r.creating = false then cdi.set fun r => { r with lastStartedAt := some w.now } else cdi
    some (.commit none
      (if handle.status = .failed then undoRelaunch s r handle.errorCode handle.errorMessage
      else if handle.status = .ready ∨ handle.status = .starting then
        s.setDaemon fun cdi => promotePendingLaunch (cdi.set fun r => { r with status := .starting }) r.launchToken
      else s))
  | _ => none

def deleteCloudAgent : DeletePoint → Reply → Option Outcome
  | .load agentId, .proceed =>
    some (match w.loadOwned agentId with
      | none => .finish
      | some (cai, cdi) => if cai.status = .deleted then .finish else .goto (.delete .mark) (s.loadRows cai cdi))
  | .mark, .proceed =>
    -- The SELECT of the keys flushes the agent first.
    some (.flush (.delete .keys) (s.setAgent (·.set fun r => { r with status := .deleting, agentToken := none })))
  | .keys, .proceed => s.rows fun cai cdi =>
    some (.goto (.delete .count)
      ({ s with
        revoked := w.activeKeys cai.current.agentId
        daemon := some (cdi.set fun r => { r with activeAgentCount := r.activeAgentCount - 1 })
        released := w.activeRuns cai.current.agentId }.setAgent scrubProvisioningMetadata))
  | .count, .proceed => some (.flush (.delete .revoke) s)
  | .revoke, .proceed => s.cdi fun cdi =>
    some (if cdi.current.activeAgentCount = 0 then .goto (.delete .cleanup) s
    else .commit none (s.setAgent (·.set fun r => { r with status := .deleted })))
  | .cleanup, .raised _ => some .finish
  | .cleanup, .handle handle =>
    some (.commit none ((s.setDaemon fun cdi => (applyHandleToRows cdi handle w.now).set fun r => { r with status := .deleted }).setAgent
      (·.set fun r => { r with status := .deleted })))
  | _, _ => none

def markReady (cdi : CloudDaemon) : CloudDaemon :=
  if cdi.current.status = .ready then cdi
  else cdi.set fun r => { r with status := .ready, lastStartedAt := some w.now, lastSeenAt := some w.now }

/-- `_provision_one` up to its frame, for a connection with a launch token. -/
def provisionOne (launchToken : Option Token) (install : Point) (after : Option Point) : Option Outcome := s.rows fun cai cdi =>
  let pending := cdi.current.metadata.pendingLaunchToken
  some (if pending ≠ none ∧ pending ≠ launchToken then
    .commit after (s.setAgent (setStatus · cai.current.status (some "cloud_daemon_launch_token_required")
      (some "cloud daemon has a pending launch token; provisioning must wait for the matching daemon session")))
  else if cai.current.provisioning.bind Provisioning.credentials = none then
    .commit after ({ s with failedChats := some cai.current.agentId }.setAgent (setStatus · .failed
      (some "missing_credentials") (some "cloud_agent_instances.metadata_json lacks provisioning credentials")))
  else .goto install s)

/-- `_provision_one` after the answer of the daemon. -/
def provisioned (cai : CloudAgent) : Reply → Option Session
  | .installed =>
    some ((s.setAgent fun cai =>
      scrubProvisioningMetadata ((setStatus cai .ready none none).set fun r => { r with lastRunAt := none })).setDaemon
        (markReady w))
  | .notInstalled code message =>
    some ({ s with failedChats := some cai.current.agentId }.setAgent
      (setStatus · cai.current.status (some code) (some message)))
  | _ => none

/-- Where a call goes on once the agent is resumed. -/
def Caller.after : Caller → Option Point
  | .request => none
  | .run r => some (.run (.room r))
  | .send agentId => some (.send agentId)

def Caller.returned (caller : Caller) : Outcome :=
  match caller.after with
  | none => .finish
  | some point => .goto point s

/-- A run gives its reservation back; a message is sent all the same. -/
def Caller.raised : Caller → Outcome
  | .request => .finish
  | .run r => .rollback (.run (.release r.runId))
  | .send agentId => .goto (.send agentId) s

def Session.provisioning (cai : CloudAgent) : Session :=
  let ensured := ensureProvisioningMetadata cai (w.fresh 0) (w.fresh 1)
  { s.setAgent (fun _ => setStatus ensured.1 .provisioning none none) with keys := ensured.2 }

def resumeCloudAgent (caller : Caller) : ResumePoint → Reply → Option Outcome
  | .lock agentId, .proceed => some (.acquire (.resume caller (.load agentId)) s)
  | .load agentId, .proceed =>
    match w.loadOwned agentId with
    | none => some (caller.raised s)
    | some (cai, cdi) =>
      -- Objects that the session has are not loaded again.
      let s := if s.agents.isEmpty then s.loadRows cai cdi else s
      s.rows fun cai cdi =>
        some (if ¬ cai.current.status.Live then caller.raised s
        else if cdi.current.status = .ready ∧ cdi.current.id ∈ w.online then
          if cdi.current.metadata.pendingLaunchToken ≠ none then caller.returned s else .goto (.resume caller .probe) s
        else .goto (.resume caller .other) s)
  | .probe, .listed (.error _) => s.rows fun cai _ =>
    some (if cai.current.status = .ready then caller.returned s
    else .commit caller.after (s.setAgent (setStatus · .ready none none)))
  | .probe, .listed (.ok live) => s.rows fun cai _ =>
    some (if cai.current.agentId ∈ live then
      .commit caller.after ((s.setAgent fun cai => scrubProvisioningMetadata (setStatus cai .ready none none)).setDaemon (markReady w))
    else .flush (.resume caller .provision) (s.provisioning w cai))
  | .provision, .proceed => provisionOne s none (.resume caller .install) caller.after
  | .install, reply => s.rows fun cai _ => (provisioned w s cai reply).map (.commit caller.after)
  | .other, .proceed => s.cdi fun cdi =>
    some (if w.OtherActive cdi.current.id then caller.raised s else .goto (.resume caller .start) s)
  | .start, .proceed => s.rows fun cai cdi =>
    some (.commit (if cdi.current.RecentInflightStart w.now then caller.after else some (.resume caller .provider))
      ((s.provisioning w cai).setDaemon (·.set fun r => { r with errorCode := none, errorMessage := none })))
  | .provider, .raised _ => some (caller.raised s)
  | .provider, .handle handle =>
    some (.commit caller.after ((s.setDaemon fun cdi =>
      (applyHandleToRows cdi handle w.now).set fun r => { r with lastStartedAt := some w.now }).setAgent fun cai =>
        match handle.status with
        | .failed => setStatus cai .failed handle.errorCode handle.errorMessage
        | .ready => setStatus cai .ready none none
        | _ => setStatus cai .provisioning none none))
  | _, _ => none

/-- An agent is tagged for the launch, and has credentials then. -/
def prepareRestart (launchToken : Token) (k : ℕ) (cai : CloudAgent) : CloudAgent × List SigningKey :=
  let ensured := ensureProvisioningMetadata (tagProvisioning cai launchToken) (w.fresh (2 * k + 1)) (w.fresh (2 * k + 2))
  (setStatus (tagProvisioning ensured.1 launchToken) .provisioning none none, ensured.2)

def restartCloudDaemon : RestartPoint → Reply → Option Outcome
  | .lock id, .proceed => some (.acquire (.restart (.load id)) s)
  | .load id, .proceed =>
    some (match w.tables.daemons.get? id with
      | none => .finish
      | some cdi =>
        if cdi.status = .deleted ∨ cdi.status = .deleting then .finish
        else .goto (.restart .reservations) { s with daemon := some (.load _ cdi) })
  | .reservations, .proceed => s.cdi fun cdi =>
    some (if w.ActiveReservation cdi.current.id then .finish else .goto (.restart .messages) s)
  | .messages, .proceed => s.cdi fun cdi =>
    some (if w.ActiveMessage cdi.current.id none then .finish else .goto (.restart .other) s)
  | .other, .proceed => s.cdi fun cdi =>
    some (if w.OtherActive cdi.current.id then .finish else .goto (.restart .agents) s)
  | .agents, .proceed => s.cdi fun cdi =>
    let rows := w.agentsOf cdi.current.id AgentStatus.Live
    some (if rows = [] then .finish else .goto (.restart .prepare) { s with agents := rows.map (.load _) })
  | .prepare, .proceed => s.cdi fun cdi =>
    let launchToken := w.fresh 0
    let prepared := s.agents.mapIdx (prepareRestart w launchToken)
    let relaunch := { launchToken, daemon := cdi.current, agents := s.agents.map Object.current, creating := false }
    some (.commit (some (.relaunch relaunch))
      { s with
        agents := prepared.map Prod.fst
        keys := prepared.flatMap Prod.snd
        daemon := some ((beginRelaunch cdi launchToken).set fun r =>
          { r with status := .starting, errorCode := none, errorMessage := none }) })
  | _, _ => none

def Running (status : AgentStatus) : Prop := status = .provisioning ∨ status = .ready
deriving Decidable

def pauseCloudAgent : PausePoint → Reply → Option Outcome
  | .load agentId, .proceed =>
    some (match w.loadOwned agentId with
      | none => .finish
      | some (cai, cdi) =>
        if ¬ cai.status.Live ∨ cai.status = .paused then .finish else .goto (.pause .flush) (s.loadRows cai cdi))
  | .flush, .proceed => some (.flush (.pause .peers) (s.setAgent (·.set fun r => { r with status := .paused })))
  | .peers, .proceed => s.rows fun cai cdi =>
    some (if (w.agentsOf cdi.current.id Running).all (·.agentId = cai.current.agentId) then .goto (.pause .provider) s
    else .commit none s)
  | .provider, .raised _ => some .finish
  | .provider, .handle handle =>
    some (.commit none (s.setDaemon fun cdi =>
      (applyHandleToRows cdi handle w.now).set fun r => { r with lastPausedAt := some w.now }))
  | _, _ => none

/-- One daemon of `pause_idle_cloud_daemons`. -/
def pauseIdleCloudDaemon (now : Instant) : IdlePoint → Reply → Option Outcome
  | .load id, .proceed =>
    some (match (w.tables.daemons.get? id).filter (·.status = .ready) with
      | none => .finish
      | some cdi => .goto (.idle now .agents) { s with daemon := some (.load _ cdi) })
  | .agents, .proceed => s.cdi fun cdi =>
    let rows := w.agentsOf cdi.current.id Running
    some (if rows = [] ∨ ∃ cai ∈ rows, cai.status = .provisioning then .finish
    else .goto (.idle now .reservations) { s with agents := rows.map (.load _) })
  | .reservations, .proceed => s.cdi fun cdi =>
    some (if w.ActiveReservation cdi.current.id then .finish else .goto (.idle now .messages) s)
  | .messages, .proceed => s.cdi fun cdi =>
    some (if w.ActiveMessage cdi.current.id (some now) ∨
        ∃ cai ∈ s.agents, now < lastActivityAt cai.current cdi.current + w.limits.idleSeconds then .finish
    else .goto (.idle now .provider) s)
  | .provider, .raised _ => some .finish
  | .provider, .handle handle =>
    some (if handle.status ≠ .paused then .finish
    else .commit none ((s.setDaemon fun cdi => (applyHandleToRows cdi handle w.now).flag fun r =>
      { r with lastPausedAt := some now, metadata := { r.metadata with lastPauseReason := some "idle_timeout" } }).setAgents
        (setStatus · .paused none none)))
  | _, _ => none

/-- The codes of `_VERIFIED_PENDING_LAUNCH_LIST_FAILURES`. -/
def verifiedPendingLaunchListFailures : List String := ["cloud_daemon_ack_timeout", "cloud_daemon_list_agents_rejected"]

def Hello.Verified (h : Hello) : Prop := h.pending ≠ none ∧ h.pending = h.launchToken
deriving Decidable

def Hello.done (h : Hello) : Outcome := if h.Verified then .goto (.hello (.tagged h)) s else .finish

def provisionPendingForCloudDaemon : HelloPoint → Reply → Option Outcome
  | .load id launchToken, .proceed =>
    some (match w.tables.daemons.get? id with
      | none => .finish
      | some cdi =>
        let h : Hello := { launchToken, pending := cdi.metadata.pendingLaunchToken }
        if h.pending ≠ none ∧ h.pending ≠ launchToken then .finish
        else .goto (.hello (.probe h)) { s with daemon := some (.load _ cdi) })
  | .probe h, .listed (.ok live) => some (.goto (.hello (.rows { h with live := some live } true)) s)
  | .probe h, .listed (.error code) =>
    let recover := h.Verified ∧ code ∈ verifiedPendingLaunchListFailures
    some (if h.pending ≠ none ∧ ¬ recover then .finish else .goto (.hello (.rows h (decide recover))) s)
  | .rows h includeReady, .proceed => s.cdi fun cdi =>
    let rows := w.agentsOf cdi.current.id fun status => status = .provisioning ∨ includeReady = true ∧ status = .ready
    some (if rows = [] then h.done s else .goto (.hello (.row h)) { s with agents := rows.map (.load _) })
  | .row h, .proceed => s.rows fun cai _ =>
    some (if ∃ live ∈ h.live, cai.current.agentId ∈ live then
      .commit (some (.hello (.refresh h)))
        ((s.setAgent fun cai => scrubProvisioningMetadata (setStatus cai .ready none none)).setDaemon (markReady w))
    else if cai.current.status = .ready then
      .flush (.hello (.provision h)) ((s.provisioning w cai).setAgent fun cai =>
        match h.pending with
        | some pending => if h.Verified then tagProvisioning cai pending else cai
        | none => cai)
    else .goto (.hello (.provision h)) s)
  | .provision h, .proceed => provisionOne s h.launchToken (.hello (.install h)) (some (.hello (.refresh h)))
  | .install h, reply => s.rows fun cai _ => (provisioned w s cai reply).map (.commit (some (.hello (.refresh h))))
  | .refresh h, .proceed => s.cdi fun cdi =>
    some (match w.tables.daemons.get? cdi.current.id with
      | none => .finish
      | some cdi =>
        let s := { s with agents := s.agents.tail, daemon := some (.load _ cdi) }
        if s.agents.isEmpty then h.done s else .goto (.hello (.row h)) s)
  | .tagged h, .proceed => s.cdi fun cdi =>
    some (match h.pending with
      | none => .finish
      | some pending =>
        if w.TaggedProvisioning cdi.current.id pending then .finish else .goto (.hello (.promote h)) s)
  | .promote h, .proceed =>
    some (match h.pending with
      | none => .finish
      | some pending => .commit none (s.setDaemon fun cdi => clearPendingLaunch (promotePendingLaunch cdi pending)))
  | _, _ => none

def createRun : RunPoint → Reply → Option Outcome
  | .load agentId, .proceed =>
    some (match w.loadOwned agentId with
      | none => .finish
      | some (cai, cdi) =>
        if ¬ cai.status.Live ∨ cai.status = .failed ∨ cai.status = .provisioning then .finish
        else .goto (.run (.reserve agentId)) (s.loadRows cai cdi))
  | .reserve agentId, .proceed => s.rows fun cai _ =>
    let r : Run := ⟨w.fresh 0, agentId⟩
    let s := { s with reservation := some { runId := r.runId, agentId } }
    some (if cai.current.status = .paused then .goto (.resume (.run r) (.lock agentId)) s else .goto (.run (.room r)) s)
  | .room r, .proceed => some (.goto (.run (.insert r)) s)
  | .insert r, .proceed =>
    some (.commit none ({ s with
      message := some { id := w.fresh 0, receiverId := r.agentId, sourceType := .cloudAgentRun, touchedAt := w.now } }.setAgent
        (·.set fun row => { row with lastRunAt := some w.now })))
  | .release runId, .proceed => some (.commit none { s with released := [runId] })
  | _, _ => none

/-- A message of an owner chat, once its agent was resumed or could not be. -/
def sendOwnerChat (agentId : AgentId) : Reply → Option Outcome
  | .proceed =>
    some (.commit none { s with
      message := some { id := w.fresh 0, receiverId := agentId, sourceType := .ownerChat, touchedAt := w.now } })
  | _ => none

def Point.next : Point → Reply → Option Outcome
  | .create p, reply => createCloudAgent w s p reply
  | .relaunch r, reply => relaunchCloudDaemon w s r reply
  | .delete p, reply => deleteCloudAgent w s p reply
  | .resume caller p, reply => resumeCloudAgent w s caller p reply
  | .restart p, reply => restartCloudDaemon w s p reply
  | .pause p, reply => pauseCloudAgent w s p reply
  | .idle now p, reply => pauseIdleCloudDaemon w s now p reply
  | .hello p, reply => provisionPendingForCloudDaemon w s p reply
  | .run p, reply => createRun w s p reply
  | .send agentId, reply => sendOwnerChat w s agentId reply

/-- An exception is raised. -/
def Point.raised : Point → Outcome
  | .resume caller _ => caller.raised s
  | .run (.room r) | .run (.insert r) => .rollback (.run (.release r.runId))
  | _ => .finish

end BotCord.Cloud
