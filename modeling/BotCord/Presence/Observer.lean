import BotCord.Presence.Service

/-!
# What a non-owner sees of an invisible agent

The projection for a non-owner puts constants in the place of four fields, the status, the connection, the manual status and its message, and passes the others on as they are. The activity is one of those, so two runs that differ in a typing signal differ for every non-owner, whatever the state they start from.
-/

namespace BotCord.Presence

structure StatusDict where
  agentId : AgentId
  version : ℕ
  effectiveStatus : EffectiveStatus
  connected : Bool
  manualStatus : ManualStatus
  statusMessage : Option String
  manualExpiresAt : Option Time
  activity : Activity
  attributes : Attributes
  lastSeenAt : Option Time
  updatedAt : Time
deriving DecidableEq

namespace AgentPresenceSnapshot

def toDict (snapshot : AgentPresenceSnapshot) : StatusDict :=
  { agentId := snapshot.agentId, version := snapshot.version, effectiveStatus := snapshot.effectiveStatus
    connected := snapshot.connected, manualStatus := snapshot.manualStatus, statusMessage := snapshot.statusMessage
    manualExpiresAt := snapshot.manualExpiresAt, activity := snapshot.activity, attributes := snapshot.attributes
    lastSeenAt := snapshot.lastSeenAt, updatedAt := snapshot.updatedAt }

def forObserver (snapshot : AgentPresenceSnapshot) (isOwner : Bool) : StatusDict :=
  if isOwner = false ∧ snapshot.manualStatus = .invisible then
    { snapshot.toDict with
      effectiveStatus := .offline, connected := false, manualStatus := .available, statusMessage := none }
  else snapshot.toDict

theorem activity_forObserver (snapshot : AgentPresenceSnapshot) (isOwner : Bool) :
    (snapshot.forObserver isOwner).activity = snapshot.activity := by
  rw [forObserver]
  split <;> rfl

end AgentPresenceSnapshot

/-- What a non-owner is told of the agent. -/
def observed (s : Tables) (agentId : AgentId) : Option StatusDict := (s.getSnapshot agentId).map (·.forObserver false)

def Tables.Invisible (s : Tables) (agentId : AgentId) : Prop := (s.ensureSettings agentId).manualStatus = .invisible
deriving Decidable

def Operation.SignalOf (agentId : AgentId) (start : Time) : Operation → Prop
  | .markConnected subject _ _ now | .markHeartbeat subject _ _ now | .markDisconnected subject _ now
  | .setProcessing subject _ _ _ now | .setTyping subject _ _ now => subject = agentId ∧ start ≤ now
  | .cleanupStale now => start ≤ now
  | .setManualStatus _ _ _ _ _ => False

/-- A run of signals during which the agent is invisible, and where it ends. -/
structure InvisibleRun (cfg : Config) (s : Tables) (agentId : AgentId) (start : Time) (signals : List Operation)
    (t : Tables) : Prop where
  only : ∀ op ∈ signals, op.SignalOf agentId start
  invisible : (service cfg).Meets (fun s _ => s.Invisible agentId) s signals
  run : (service cfg).run s signals = some t
  ends : t.Invisible agentId

/-- Non-owners cannot tell any two runs of signals apart. -/
def Hides (cfg : Config) (s : Tables) (agentId : AgentId) (start : Time) : Prop :=
  ∀ left right t u, InvisibleRun cfg s agentId start left t → InvisibleRun cfg s agentId start right u →
    observed t agentId = observed u agentId

section Typing

variable (cfg : Config) (s : Tables) (agentId : AgentId) (typing : Bool) (expiresAt : Option Time) (now : Time)

theorem settings_withTyping : (withTyping cfg s agentId typing expiresAt now).settings =
    expireManualIfNeeded (s.ensureSettings agentId) now := rfl

theorem typing_withTyping : (withTyping cfg s agentId typing expiresAt now).activity.typing = some typing :=
  (typing_expireProcessingIfNeeded ..).1

variable {s agentId now}

theorem manualStatus_withTyping (hinvisible : s.Invisible agentId) (hlasts : ¬ (s.ensureSettings agentId).Expired now) :
    (withTyping cfg s agentId typing expiresAt now).settings.manualStatus = .invisible := by
  rw [settings_withTyping, expireManualIfNeeded, if_neg hlasts]
  exact hinvisible

theorem invisibleRun_setTyping (hinvisible : s.Invisible agentId) (hlasts : ¬ (s.ensureSettings agentId).Expired now) :
    InvisibleRun cfg s agentId now [.setTyping agentId typing expiresAt now]
      (setTyping cfg s agentId typing expiresAt now).tables := by
  refine ⟨?_, ⟨hinvisible, fun _ _ => trivial⟩, rfl, ?_⟩
  · intro op hop
    rw [List.mem_singleton.mp hop]
    exact ⟨rfl, le_refl now⟩
  · have hsettings : (setTyping cfg s agentId typing expiresAt now).tables.ensureSettings agentId = _ :=
      ensureSettings_recomputed cfg (withTyping cfg s agentId typing expiresAt now)
    rw [Tables.Invisible, hsettings]
    exact manualStatus_withTyping cfg typing expiresAt hinvisible hlasts

theorem observed_setTyping :
    (observed (setTyping cfg s agentId typing expiresAt now).tables agentId).map (·.activity.typing) =
      some (some typing) := by
  have hsnapshot : (setTyping cfg s agentId typing expiresAt now).tables.getSnapshot agentId = _ :=
    getSnapshot_recomputed cfg (withTyping cfg s agentId typing expiresAt now)
  rw [observed, hsnapshot, Option.map_some, Option.map_some, AgentPresenceSnapshot.activity_forObserver]
  exact congrArg some (typing_withTyping cfg s agentId typing expiresAt now)

end Typing

/-- From every state and time at which an agent is invisible, two runs can be told apart: it typed, or it did not. -/
theorem invisible_leaks (cfg : Config) (s : Tables) (agentId : AgentId) (now : Time) (hinvisible : s.Invisible agentId)
    (hlasts : ¬ (s.ensureSettings agentId).Expired now) : ¬ Hides cfg s agentId now := by
  intro hhides
  have hsame := hhides _ _ _ _ (invisibleRun_setTyping cfg true none hinvisible hlasts)
    (invisibleRun_setTyping cfg false none hinvisible hlasts)
  have htyping := congrArg (Option.map (·.activity.typing)) hsame
  rw [observed_setTyping, observed_setTyping] at htyping
  cases htyping

/-- An agent that was made invisible, without an end. -/
def hidden : Tables where
  settings := [{ agentId := "ag_a", manualStatus := .invisible }]
  presence := [{ agentId := "ag_a", version := 3, updatedAt := 0 }]

theorem invisible_leaks_hidden : ¬ Hides defaultConfig hidden "ag_a" 1 :=
  invisible_leaks defaultConfig hidden "ag_a" 1 (by decide) (by decide)

/-- The task a non-owner reads off an invisible agent at work, beside an idle run that shows none. -/
theorem task_shown : ∃ t u, InvisibleRun defaultConfig hidden "ag_a" 1 [.setProcessing "ag_a" true (some "audit") none 1] t ∧
    InvisibleRun defaultConfig hidden "ag_a" 1 [.setProcessing "ag_a" false none none 1] u ∧
    (observed t "ag_a").map (·.attributes.currentTask) = some (some "audit") ∧
    (observed u "ag_a").map (·.attributes.currentTask) = some none ∧ observed t "ag_a" ≠ observed u "ag_a" := by
  refine ⟨_, _, ⟨?_, ⟨by decide, fun _ _ => trivial⟩, rfl, by decide +kernel⟩,
    ⟨?_, ⟨by decide, fun _ _ => trivial⟩, rfl, by decide +kernel⟩, by decide +kernel, by decide +kernel, by decide +kernel⟩
  · intro op hop
    rw [List.mem_singleton.mp hop]
    exact ⟨rfl, le_refl _⟩
  · intro op hop
    rw [List.mem_singleton.mp hop]
    exact ⟨rfl, le_refl _⟩

end BotCord.Presence
