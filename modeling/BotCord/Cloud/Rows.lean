import BotCord.Foundation.Objects
import BotCord.Keys.Registry
import BotCord.Usage.Store

/-!
# Cloud daemons and their agents

`cloud_daemon_instances` and `cloud_agent_instances`, and what the helpers of `hub/services/cloud_agent.py` do with their objects. An agent has one row of `agents`, of which these functions write the token and the status; it is taken together with that of `cloud_agent_instances`, with which it is loaded and written. In the same way a cloud daemon has one row of `daemon_instances`, by whose id it goes here.
-/

namespace BotCord.Cloud

open Delivery (column Instant MessageState)
open Keys (KeyState)
open Usage (ReservationState)

/-- An id, token or key pair: the step in which it was drawn, and its place among those drawn there. -/
abbrev Drawn := ℕ × ℕ

abbrev DaemonId := Drawn
abbrev AgentId := Drawn
abbrev KeyId := Drawn
abbrev Token := Drawn
abbrev RunId := Drawn

inductive DaemonStatus
  | creating | starting | ready | paused | failed | deleting | deleted
deriving DecidableEq

inductive AgentStatus
  | provisioning | ready | paused | failed | deleting | deleted
deriving DecidableEq

/-- `_ACTIVE_CLOUD_DAEMON_STATUSES`. -/
def DaemonStatus.Active (s : DaemonStatus) : Prop := s = .creating ∨ s = .starting ∨ s = .ready ∨ s = .paused
deriving Decidable

/-- Neither `deleting` nor `deleted`. -/
def AgentStatus.Live (s : AgentStatus) : Prop := s ≠ .deleting ∧ s ≠ .deleted
deriving Decidable

structure DaemonMetadata where
  pendingLaunchToken : Option Token := none
  currentLaunchToken : Option Token := none
  lastPauseReason : Option String := none
deriving DecidableEq

structure CloudDaemonInstance where
  id : DaemonId
  provider : String
  providerSandboxId : Option String := none
  providerTemplateId : Option String := none
  status : DaemonStatus := .creating
  region : Option String := none
  maxAgents : ℕ
  activeAgentCount : ℕ := 0
  lastStartedAt : Option Instant := none
  lastPausedAt : Option Instant := none
  lastSeenAt : Option Instant := none
  createdAt : Instant
  errorCode : Option String := none
  errorMessage : Option String := none
  metadata : DaemonMetadata := {}
deriving DecidableEq

/-- `private_key_b64`, `public_key_b64` and `key_id`, which are only written together. -/
structure Credentials where
  keyId : KeyId
  keyPair : Drawn
deriving DecidableEq

structure Provisioning where
  credentials : Option Credentials := none
  launchToken : Option Token := none
deriving DecidableEq

structure CloudAgentInstance where
  agentId : AgentId
  cloudDaemonInstanceId : DaemonId
  status : AgentStatus := .provisioning
  lastRunAt : Option Instant := none
  lastActiveAt : Option Instant := none
  createdAt : Instant
  errorCode : Option String := none
  errorMessage : Option String := none
  /-- The entry `provisioning` of `metadata_json`. -/
  provisioning : Option Provisioning := none
  agentToken : Option Token := none
deriving DecidableEq

structure SigningKey where
  agentId : AgentId
  keyId : KeyId
  /-- Whose public half is the key. -/
  keyPair : Drawn
  state : KeyState := .active
deriving DecidableEq

/-- `source_type` of a message to a cloud agent. -/
inductive SourceType
  | cloudAgentRun | ownerChat
deriving DecidableEq

structure MessageRecord where
  id : Drawn
  receiverId : AgentId
  sourceType : SourceType
  state : MessageState := .queued
  /-- When it was acknowledged, delivered or created, whichever came last. -/
  touchedAt : Instant

structure UsageReservation where
  runId : RunId
  agentId : AgentId
  state : ReservationState := .active

structure CloudDaemonHandle where
  status : DaemonStatus
  provider : String := "e2b"
  providerSandboxId : Option String := none
  providerTemplateId : Option String := none
  region : Option String := none
  errorCode : Option String := none
  errorMessage : Option String := none

theorem column_loaded {α : Type} [DecidableEq α] (loaded value : α) : column loaded value loaded = value := by
  unfold column
  split
  · assumption
  · rfl

theorem column_clean {α : Type} [DecidableEq α] (loaded current : α) : column loaded loaded current = current := if_pos rfl

/-- What an UPDATE makes of a row. The columns that no function sets stay. -/
def CloudDaemonInstance.write (loaded value : CloudDaemonInstance) (flagged : Bool) (r : CloudDaemonInstance) :
    CloudDaemonInstance :=
  { r with
    provider := column loaded.provider value.provider r.provider
    providerSandboxId := column loaded.providerSandboxId value.providerSandboxId r.providerSandboxId
    providerTemplateId := column loaded.providerTemplateId value.providerTemplateId r.providerTemplateId
    status := column loaded.status value.status r.status
    region := column loaded.region value.region r.region
    activeAgentCount := column loaded.activeAgentCount value.activeAgentCount r.activeAgentCount
    lastStartedAt := column loaded.lastStartedAt value.lastStartedAt r.lastStartedAt
    lastPausedAt := column loaded.lastPausedAt value.lastPausedAt r.lastPausedAt
    lastSeenAt := column loaded.lastSeenAt value.lastSeenAt r.lastSeenAt
    errorCode := column loaded.errorCode value.errorCode r.errorCode
    errorMessage := column loaded.errorMessage value.errorMessage r.errorMessage
    metadata := if flagged then value.metadata else column loaded.metadata value.metadata r.metadata }

def CloudAgentInstance.write (loaded value : CloudAgentInstance) (flagged : Bool) (r : CloudAgentInstance) :
    CloudAgentInstance :=
  { r with
    status := column loaded.status value.status r.status
    lastRunAt := column loaded.lastRunAt value.lastRunAt r.lastRunAt
    errorCode := column loaded.errorCode value.errorCode r.errorCode
    errorMessage := column loaded.errorMessage value.errorMessage r.errorMessage
    provisioning := if flagged then value.provisioning else column loaded.provisioning value.provisioning r.provisioning
    agentToken := column loaded.agentToken value.agentToken r.agentToken }

instance : Columns CloudDaemonInstance.id where
  write := CloudDaemonInstance.write
  key_write _ _ _ _ := rfl
  write_clean loaded r := by
    simp only [CloudDaemonInstance.write, column_clean, Bool.false_eq_true, if_false]

instance : Columns CloudAgentInstance.agentId where
  write := CloudAgentInstance.write
  key_write _ _ _ _ := rfl
  write_clean loaded r := by
    simp only [CloudAgentInstance.write, column_clean, Bool.false_eq_true, if_false]

abbrev CloudDaemon := Object CloudDaemonInstance.id

abbrev CloudAgent := Object CloudAgentInstance.agentId

/-- `_apply_handle_to_rows`. -/
def applyHandleToRows (cdi : CloudDaemon) (handle : CloudDaemonHandle) (now : Instant) : CloudDaemon :=
  cdi.set fun r =>
    { r with
      status := handle.status
      provider := handle.provider
      providerSandboxId := handle.providerSandboxId.or r.providerSandboxId
      providerTemplateId := handle.providerTemplateId.or r.providerTemplateId
      region := handle.region.or r.region
      errorCode := handle.errorCode
      errorMessage := handle.errorMessage
      lastStartedAt := if handle.status = .ready then some now else r.lastStartedAt
      lastSeenAt := if handle.status = .ready then some now else r.lastSeenAt }

/-- `_restore_cloud_daemon_state`, of a snapshot of the object. -/
def restoreCloudDaemonState (cdi : CloudDaemon) (state : CloudDaemonInstance) : CloudDaemon :=
  cdi.flag fun r =>
    { r with
      status := state.status
      provider := state.provider
      providerSandboxId := state.providerSandboxId
      providerTemplateId := state.providerTemplateId
      region := state.region
      errorCode := state.errorCode
      errorMessage := state.errorMessage
      metadata := state.metadata
      lastStartedAt := state.lastStartedAt
      lastSeenAt := state.lastSeenAt }

/-- `_restore_cloud_agent_state`. -/
def restoreCloudAgentState (cai : CloudAgent) (state : CloudAgentInstance) : CloudAgent :=
  cai.flag fun r =>
    { r with
      status := state.status
      errorCode := state.errorCode
      errorMessage := state.errorMessage
      provisioning := state.provisioning }

def setStatus (cai : CloudAgent) (status : AgentStatus) (errorCode errorMessage : Option String) : CloudAgent :=
  cai.set fun r => { r with status, errorCode, errorMessage }

/-- `_scrub_provisioning_metadata`. -/
def scrubProvisioningMetadata (cai : CloudAgent) : CloudAgent :=
  if cai.current.provisioning = none then cai else cai.flag fun r => { r with provisioning := none }

/-- `_tag_provisioning_for_cloud_daemon_launch`. -/
def tagProvisioning (cai : CloudAgent) (launchToken : Token) : CloudAgent :=
  cai.flag fun r => { r with provisioning := some { r.provisioning.getD {} with launchToken := some launchToken } }

/-- `_ensure_provisioning_metadata`: an agent without credentials gets a new key, and a new token. -/
def ensureProvisioningMetadata (cai : CloudAgent) (fresh : Drawn) (token : Token) : CloudAgent × List SigningKey :=
  match cai.current.provisioning.bind Provisioning.credentials with
  | some _ => (cai, [])
  | none =>
    (cai.flag fun r => { r with provisioning := some { credentials := some ⟨fresh, fresh⟩ }, agentToken := some token },
      [{ agentId := cai.current.agentId, keyId := fresh, keyPair := fresh }])

/-- `_begin_cloud_daemon_relaunch`, of which the agents are tagged apart. -/
def beginRelaunch (cdi : CloudDaemon) (launchToken : Token) : CloudDaemon :=
  cdi.flag fun r => { r with metadata := { r.metadata with pendingLaunchToken := some launchToken } }

/-- `_promote_cloud_daemon_pending_launch`. -/
def promotePendingLaunch (cdi : CloudDaemon) (launchToken : Token) : CloudDaemon :=
  if cdi.current.metadata.pendingLaunchToken = some launchToken then
    cdi.flag fun r => { r with metadata := { r.metadata with currentLaunchToken := some launchToken } }
  else cdi

/-- `_clear_cloud_daemon_pending_launch`. -/
def clearPendingLaunch (cdi : CloudDaemon) : CloudDaemon :=
  if cdi.current.metadata.pendingLaunchToken = none then cdi
  else cdi.flag fun r => { r with metadata := { r.metadata with pendingLaunchToken := none } }

/-- `_is_recent_inflight_start`. -/
def CloudDaemonInstance.RecentInflightStart (r : CloudDaemonInstance) (now : Instant) : Prop :=
  r.status = .starting ∧ (∃ id ∈ r.providerSandboxId, id ≠ "") ∧ now ≤ r.lastStartedAt.getD r.createdAt + 30
deriving Decidable

/-- `_cloud_agent_last_activity_at`. -/
def lastActivityAt (cai : CloudAgentInstance) (cdi : CloudDaemonInstance) : Instant :=
  [cai.lastRunAt.getD 0, cai.lastActiveAt.getD 0, cai.createdAt, cdi.lastStartedAt.getD 0, cdi.createdAt].foldl max 0

section Agent

variable (cai : CloudAgent) (fresh : Drawn) (token : Token)

theorem follows_scrubProvisioningMetadata : cai.Follows (scrubProvisioningMetadata cai) := by
  unfold scrubProvisioningMetadata
  split
  · exact .refl cai
  · exact cai.follows_flag _ _

theorem follows_ensureProvisioningMetadata : cai.Follows (ensureProvisioningMetadata cai fresh token).1 := by
  unfold ensureProvisioningMetadata
  split
  · exact .refl cai
  · exact cai.follows_flag _ _

@[simp] theorem status_scrubProvisioningMetadata : (scrubProvisioningMetadata cai).current.status = cai.current.status := by
  unfold scrubProvisioningMetadata
  split
  · rfl
  · rfl

end Agent

end BotCord.Cloud
