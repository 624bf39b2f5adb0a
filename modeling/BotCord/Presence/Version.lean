import BotCord.Presence.Service

/-!
# What a version says of a snapshot

The test for a new version compares the stored row with what is written over it, and the manual status with its message and end is in another table. So a version identifies what is shown in every run in which an operation that changes one of these three fields also opens or loses a connection, says something new of the activity or shows in the status, and elsewhere a viewer who keeps the highest version keeps the older of two.
-/

namespace BotCord.Presence

structure Shown where
  effectiveStatus : EffectiveStatus
  connected : Bool
  manual : ManualStatus × Option String × Option Time
  activity : Activity
  attributes : Attributes

def AgentStatusSettings.manual (settings : AgentStatusSettings) : ManualStatus × Option String × Option Time :=
  (settings.manualStatus, settings.statusMessage, settings.manualExpiresAt)

def AgentPresenceSnapshot.manual (x : AgentPresenceSnapshot) : ManualStatus × Option String × Option Time :=
  (x.manualStatus, x.statusMessage, x.manualExpiresAt)

def AgentPresenceSnapshot.shown (x : AgentPresenceSnapshot) : Shown :=
  ⟨x.effectiveStatus, x.connected, x.manual, x.activity, x.attributes⟩

/-- A later snapshot: of no lower version, and of the same version only if it shows the same. -/
structure Follows (x y : AgentPresenceSnapshot) : Prop where
  version : x.version ≤ y.version
  shown : x.version = y.version → x.shown = y.shown

theorem Follows.refl (x : AgentPresenceSnapshot) : Follows x x := ⟨le_refl _, fun _ => rfl⟩

theorem Follows.trans {x y z : AgentPresenceSnapshot} (h : Follows x y) (h' : Follows y z) : Follows x z := by
  refine ⟨h.version.trans h'.version, fun hversion => ?_⟩
  have hfirst : x.version = y.version := le_antisymm h.version (hversion ▸ h'.version)
  exact (h.shown hfirst).trans (h'.shown (hfirst.symm.trans hversion))

def Activity.Lapsed (activity : Activity) (now : Time) : Prop :=
  activity.processing = some true ∧ ∃ expiresAt ∈ activity.processingExpiresAt, expiresAt ≤ now
deriving Decidable

/-- What an operation recomputes of an agent, if it does. A cleanup comes to the agent with its own rows as it found them. -/
def Operation.recomputation (cfg : Config) (s : Tables) (agentId : AgentId) : Operation → Option Recomputation
  | .markConnected subject connectionId nodeId now | .markHeartbeat subject connectionId nodeId now =>
    if subject = agentId then some (touchConnection s subject connectionId nodeId now) else none
  | .markDisconnected subject connectionId now =>
    if subject = agentId then some (dropConnection s subject connectionId now) else none
  | .setManualStatus subject manualStatus statusMessage manualExpiresAt now =>
    if subject = agentId then some (withManualStatus s subject manualStatus statusMessage manualExpiresAt now) else none
  | .setProcessing subject processing currentTask expiresAt now =>
    if subject = agentId then some (withProcessing cfg s subject processing currentTask expiresAt now) else none
  | .setTyping subject typing expiresAt now =>
    if subject = agentId then some (withTyping cfg s subject typing expiresAt now) else none
  | .cleanupStale now =>
    if agentId ∈ affectedAgents cfg s now then some { tables := dropStale cfg s now, agentId, now } else none

namespace Operation

variable (cfg : Config) (s : Tables) (agentId : AgentId) (x : AgentPresenceSnapshot)

def now : Operation → Time
  | .markConnected _ _ _ now | .markHeartbeat _ _ _ now | .markDisconnected _ _ now | .setManualStatus _ _ _ _ now
  | .setProcessing _ _ _ _ now | .setTyping _ _ _ now | .cleanupStale now => now

/-- The manual fields that the operation is given, or those that are shown. -/
def given : Operation → ManualStatus × Option String × Option Time
  | .setManualStatus _ manualStatus statusMessage manualExpiresAt _ => (manualStatus, statusMessage, manualExpiresAt)
  | _ => x.manual

/-- The manual fields at the time of the operation: none, once their end has passed. -/
def manual (op : Operation) : ManualStatus × Option String × Option Time :=
  if ∃ expiresAt ∈ (op.given x).2.2, expiresAt ≤ op.now then (.available, none, none) else op.given x

/-- How many connections the agent has when the operation has opened, renewed or closed its own. -/
def leases : Operation → ℕ
  | .markConnected _ connectionId nodeId now | .markHeartbeat _ connectionId nodeId now =>
    (s.upsertConnection connectionId agentId nodeId now).countConnections cfg agentId now
  | .markDisconnected _ connectionId now =>
    Tables.countConnections cfg { s with connections := s.connections.filter (·.connectionId ≠ connectionId) } agentId now
  | op => s.countConnections cfg agentId op.now

/-- The operation says something of the activity or the task that is not shown, or comes after the end of a processing that is. -/
def Alters : Operation → Prop
  | .setProcessing _ processing currentTask expiresAt now =>
    let until_ := expiresAt.getD (now + cfg.processingFailsafeTimeout)
    x.activity.processing ≠ some (decide (processing = true ∧ now < until_)) ∨
      x.activity.processingExpiresAt ≠ (if processing = true ∧ now < until_ then some until_ else none) ∨
      x.attributes.currentTask ≠ if processing then currentTask.or x.attributes.currentTask else none
  | .setTyping _ typing expiresAt now =>
    x.activity.typing ≠ some typing ∨
      x.activity.typingExpiresAt ≠ (if typing then some (expiresAt.getD (now + cfg.typingTimeout)) else none) ∨
      x.activity.Lapsed now
  | op => x.activity.Lapsed op.now

instance : DecidablePred (Alters cfg x)
  | .setProcessing .. | .setTyping .. => inferInstanceAs (Decidable (_ ∨ _ ∨ _))
  | .markConnected .. | .markHeartbeat .. | .markDisconnected .. | .setManualStatus .. | .cleanupStale _ =>
    inferInstanceAs (Decidable (Activity.Lapsed _ _))

end Operation

/-- An operation that recomputes the agent leaves the manual fields as they are shown, or finds another number of connections than is stored, or alters the activity, or the manual status that it leaves shows in the status. -/
def Tracked (cfg : Config) (agentId : AgentId) (s : Tables) (op : Operation) : Prop :=
  ∀ x ∈ s.getSnapshot agentId, (op.recomputation cfg s agentId).isSome →
    op.manual x = x.manual ∨ x.connectionCount ≠ op.leases cfg s agentId ∨ op.Alters cfg x ∨
      x.effectiveStatus ≠ resolveEffectiveStatus (op.manual x).1 x.connected x.activity
deriving Decidable

section Recompute

variable {cfg : Config} {s t : Tables} {agentId : AgentId} {now : Time} {r : Recomputation}

/-- The agent's rows and all connections are the same. -/
structure SameFor (agentId : AgentId) (s t : Tables) : Prop where
  settings : t.findSettings agentId = s.findSettings agentId
  presence : t.findPresence agentId = s.findPresence agentId
  connections : t.connections = s.connections

theorem SameFor.snapshot (h : SameFor agentId s t) :
    (recomputeAndPersist cfg { tables := t, agentId, now }).snapshot =
      (recomputeAndPersist cfg { tables := s, agentId, now }).snapshot := by
  have hsettings : t.ensureSettings agentId = s.ensureSettings agentId := by
    rw [Tables.ensureSettings, h.settings]
    rfl
  have hpresence : t.ensurePresence agentId now = s.ensurePresence agentId now := by
    rw [Tables.ensurePresence, h.presence]
    rfl
  have hcount : t.countConnections cfg agentId now = s.countConnections cfg agentId now := by
    rw [Tables.countConnections, h.connections]
    rfl
  simp only [recomputeAndPersist, Recomputation.presence, Recomputation.Changed, Recomputation.newStatus,
    Recomputation.connected, Recomputation.connectionCount, Recomputation.activity, Recomputation.attributes,
    Recomputation.stored, Recomputation.settings, hsettings, hpresence, hcount]
  congr!

theorem sameFor_recomputed (h : agentId ≠ r.agentId) :
    SameFor agentId r.tables (recomputeAndPersist cfg r).tables := by
  have hpresence : agentId ≠ (r.presence cfg).agentId := agentId_presence cfg r ▸ h
  have hsettings : agentId ≠ r.settings.agentId := agentId_settings r ▸ h
  exact ⟨findSettings_putSettings_of_ne hsettings, findPresence_putPresence_of_ne hpresence, rfl⟩

theorem getSnapshot_recomputeEach_of_not_mem {ids : List AgentId} (h : agentId ∉ ids) :
    (recomputeEach cfg now s ids).1.getSnapshot agentId = s.getSnapshot agentId := by
  induction ids generalizing s with
  | nil => rfl
  | cons first rest ih =>
    rw [List.mem_cons, not_or] at h
    rw [recomputeEach]
    exact (ih h.2).trans (getSnapshot_recomputed_of_ne cfg h.1)

theorem getSnapshot_recomputeEach_of_mem {ids : List AgentId} (hids : ids.Nodup) (h : agentId ∈ ids) :
    (recomputeEach cfg now s ids).1.getSnapshot agentId =
      some (recomputeAndPersist cfg { tables := s, agentId, now }).snapshot := by
  induction ids generalizing s with
  | nil => cases h
  | cons first rest ih =>
    rw [List.nodup_cons] at hids
    rw [recomputeEach]
    by_cases hfirst : agentId = first
    · subst hfirst
      exact (getSnapshot_recomputeEach_of_not_mem hids.1).trans
        (getSnapshot_recomputed cfg { tables := s, agentId, now })
    · have hrest : agentId ∈ rest := (List.mem_cons.mp h).resolve_left hfirst
      rw [ih hids.2 hrest]
      exact congrArg some (sameFor_recomputed (r := { tables := s, agentId := first, now }) hfirst).snapshot

/-- An operation for an agent leaves that agent what it recomputed, and every other agent what it had. -/
theorem getSnapshot_of_subject {subject : AgentId} (hagent : r.agentId = subject)
    (hkept : subject ≠ agentId → r.tables.getSnapshot agentId = s.getSnapshot agentId) :
    (recomputeAndPersist cfg r).tables.getSnapshot agentId =
      ((if subject = agentId then some r else none).map fun r => (recomputeAndPersist cfg r).snapshot).or
        (s.getSnapshot agentId) := by
  by_cases hsubject : subject = agentId
  · rw [if_pos hsubject, ← hsubject, ← hagent]
    exact getSnapshot_recomputed cfg r
  · have hne : agentId ≠ r.agentId := fun h => hsubject (hagent ▸ h.symm)
    rw [if_neg hsubject, getSnapshot_recomputed_of_ne cfg hne]
    exact hkept hsubject

theorem getSnapshot_putPresence_of_ne {presence : AgentPresence} (h : presence.agentId ≠ agentId) :
    (s.putPresence presence).getSnapshot agentId = s.getSnapshot agentId := by
  rw [Tables.getSnapshot, Tables.getSnapshot, findPresence_putPresence_of_ne h.symm]
  rfl

theorem getSnapshot_putSettings_of_ne {settings : AgentStatusSettings} (h : settings.agentId ≠ agentId) :
    (s.putSettings settings).getSnapshot agentId = s.getSnapshot agentId := by
  rw [Tables.getSnapshot, Tables.getSnapshot, Tables.ensureSettings, Tables.ensureSettings,
    findSettings_putSettings_of_ne h.symm]
  rfl

theorem getSnapshot_apply (cfg : Config) (s : Tables) (agentId : AgentId) (op : Operation) :
    (op.apply cfg s).getSnapshot agentId =
      ((op.recomputation cfg s agentId).map fun r => (recomputeAndPersist cfg r).snapshot).or (s.getSnapshot agentId) := by
  cases op with
  | markConnected subject connectionId nodeId now =>
    exact getSnapshot_of_subject (r := touchConnection s subject connectionId nodeId now) rfl fun _ => rfl
  | markHeartbeat subject connectionId nodeId now =>
    exact getSnapshot_of_subject (r := touchConnection s subject connectionId nodeId now) rfl fun _ => rfl
  | markDisconnected subject connectionId now =>
    exact getSnapshot_of_subject (r := dropConnection s subject connectionId now) rfl fun _ => rfl
  | setManualStatus subject manualStatus statusMessage manualExpiresAt now =>
    refine getSnapshot_of_subject (r := withManualStatus s subject manualStatus statusMessage manualExpiresAt now) rfl ?_
    exact fun hne => getSnapshot_putSettings_of_ne ((agentId_ensureSettings s subject).trans_ne hne)
  | setProcessing subject processing currentTask expiresAt now =>
    refine getSnapshot_of_subject (r := withProcessing cfg s subject processing currentTask expiresAt now) rfl ?_
    exact fun hne => getSnapshot_putPresence_of_ne ((agentId_ensurePresence s subject now).trans_ne hne)
  | setTyping subject typing expiresAt now =>
    refine getSnapshot_of_subject (r := withTyping cfg s subject typing expiresAt now) rfl ?_
    exact fun hne => getSnapshot_putPresence_of_ne ((agentId_ensurePresence s subject now).trans_ne hne)
  | cleanupStale now =>
    simp only [Operation.recomputation]
    by_cases hmem : agentId ∈ affectedAgents cfg s now
    · rw [if_pos hmem]
      exact getSnapshot_recomputeEach_of_mem (List.nodup_dedup _) hmem
    · rw [if_neg hmem]
      exact getSnapshot_recomputeEach_of_not_mem hmem

theorem manual_expireManualIfNeeded (settings : AgentStatusSettings) :
    (expireManualIfNeeded settings now).manual =
      if ∃ expiresAt ∈ settings.manualExpiresAt, expiresAt ≤ now then (.available, none, none) else settings.manual := by
  rw [expireManualIfNeeded]
  split
  · rename_i hexpired
    exact (if_pos hexpired).symm
  · rename_i hlives
    exact (if_neg hlives).symm

theorem processing_of_lapsed {activity : Activity} (h : activity.Lapsed now) :
    (expireProcessingIfNeeded activity now).processing = some false := by
  rw [expireProcessingIfNeeded, if_pos h.symm]

theorem expire_processingActivity (cfg : Config) (now : Time) (activity : Activity) (processing : Bool) (expiresAt : Option Time) :
    let until_ := expiresAt.getD (now + cfg.processingFailsafeTimeout)
    let expired := expireProcessingIfNeeded (processingActivity cfg activity processing expiresAt now) now
    expired.processing = some (decide (processing = true ∧ now < until_)) ∧
      expired.processingExpiresAt = if processing = true ∧ now < until_ then some until_ else none := by
  dsimp only
  rw [expireProcessingIfNeeded]
  cases processing with
  | false => exact ⟨rfl, rfl⟩
  | true =>
    by_cases hlive : now < expiresAt.getD (now + cfg.processingFailsafeTimeout)
    · simp [processingActivity, hlive, not_le.mpr hlive]
    · simp [processingActivity, hlive, not_lt.mp hlive]

theorem countConnections_dropStale : (dropStale cfg s now).countConnections cfg agentId now = s.countConnections cfg agentId now := by
  simp only [Tables.countConnections, dropStale, List.filter_filter]
  congr 1
  refine List.filter_congr fun c _ => ?_
  by_cases hlive : Tables.Live cfg agentId now c
  · simp [hlive, Stale, not_lt.mpr hlive.2]
  · simp [hlive]

/-- What an operation recomputes, from its arguments and the snapshot before it. -/
structure Recomputes (cfg : Config) (s : Tables) (agentId : AgentId) (x : AgentPresenceSnapshot) (op : Operation)
    (r : Recomputation) : Prop where
  stored : toSnapshot r.stored (s.ensureSettings agentId) = x
  manual : r.settings.manual = op.manual x
  connectionCount : r.connectionCount cfg = op.leases cfg s agentId
  alters : op.Alters cfg x → x.activity ≠ r.activity ∨ x.attributes ≠ r.attributes

theorem ensurePresence_eq {presence : AgentPresence} (h : s.findPresence agentId = some presence) (now : Time) :
    s.ensurePresence agentId now = presence := by
  rw [Tables.ensurePresence, h]
  rfl

theorem ensurePresence_put {presence : AgentPresence} (h : s.findPresence agentId = some presence) (now : Time) :
    (s.putPresence (s.ensurePresence agentId now)).ensurePresence agentId now = presence := by
  have hfind := findPresence_putPresence_self s (s.ensurePresence agentId now)
  rw [agentId_ensurePresence] at hfind
  rw [ensurePresence_eq hfind, ensurePresence_eq h]

theorem ensureSettings_put {settings : AgentStatusSettings} (h : settings.agentId = agentId) :
    (s.putSettings settings).ensureSettings agentId = settings := by
  have hfind := findSettings_putSettings_self s settings
  rw [h] at hfind
  rw [Tables.ensureSettings, hfind]
  rfl

theorem recomputes {op : Operation} {x : AgentPresenceSnapshot} (hx : x ∈ s.getSnapshot agentId)
    (hr : r ∈ op.recomputation cfg s agentId) : Recomputes cfg s agentId x op r := by
  obtain ⟨presence, hpresence, rfl⟩ := Option.map_eq_some_iff.mp hx
  have hensured := ensurePresence_eq hpresence
  have hput := ensurePresence_put hpresence
  have hlapsed : ∀ r : Recomputation, r.stored = presence → r.activityOverride = none → presence.activity.Lapsed r.now →
      presence.activity ≠ r.activity := by
    intro r hstored hnone hlapsed heq
    rw [Recomputation.activity, hnone, Option.getD_none, hstored] at heq
    cases hlapsed.1.symm.trans ((congrArg Activity.processing heq).trans (processing_of_lapsed hlapsed))
  cases op with
  | markConnected subject connectionId nodeId now | markHeartbeat subject connectionId nodeId now
  | markDisconnected subject connectionId now =>
    simp only [Operation.recomputation, Option.mem_def, Option.ite_none_right_eq_some, Option.some.injEq] at hr
    obtain ⟨rfl, rfl⟩ := hr
    exact ⟨congrArg (toSnapshot · _) (hensured now), manual_expireManualIfNeeded _, rfl, fun h => .inl (hlapsed _ (hensured now) rfl h)⟩
  | setManualStatus subject manualStatus statusMessage manualExpiresAt now =>
    simp only [Operation.recomputation, Option.mem_def, Option.ite_none_right_eq_some, Option.some.injEq] at hr
    obtain ⟨rfl, rfl⟩ := hr
    let settings := { s.ensureSettings subject with manualStatus, statusMessage, manualExpiresAt }
    have hset : (s.putSettings settings).ensureSettings subject = settings :=
      ensureSettings_put (agentId_ensureSettings s subject)
    refine ⟨congrArg (toSnapshot · _) (hensured now), ?_, rfl, fun h => .inl (hlapsed _ (hensured now) rfl h)⟩
    exact (congrArg (fun found => (expireManualIfNeeded found now).manual) hset).trans (manual_expireManualIfNeeded settings)
  | setProcessing subject processing currentTask expiresAt now =>
    simp only [Operation.recomputation, Option.mem_def, Option.ite_none_right_eq_some, Option.some.injEq] at hr
    obtain ⟨rfl, rfl⟩ := hr
    refine ⟨congrArg (toSnapshot · _) (hput now), manual_expireManualIfNeeded _, rfl, fun halters => ?_⟩
    by_contra hsame
    obtain ⟨hactivity, hattributes⟩ := not_or.mp hsame
    have hactivity := not_not.mp hactivity
    have hattributes := not_not.mp hattributes
    simp only [withProcessing, Recomputation.activity, Recomputation.attributes, Option.getD_some, hensured] at hactivity hattributes
    obtain ⟨hprocessing, hexpires⟩ := expire_processingActivity cfg now presence.activity processing expiresAt
    rcases halters with h | h | h
    · exact h ((congrArg Activity.processing hactivity).trans hprocessing)
    · exact h ((congrArg Activity.processingExpiresAt hactivity).trans hexpires)
    · exact h (congrArg Attributes.currentTask hattributes)
  | setTyping subject typing expiresAt now =>
    simp only [Operation.recomputation, Option.mem_def, Option.ite_none_right_eq_some, Option.some.injEq] at hr
    obtain ⟨rfl, rfl⟩ := hr
    refine ⟨congrArg (toSnapshot · _) (hput now), manual_expireManualIfNeeded _, rfl, fun halters => .inl fun hactivity => ?_⟩
    simp only [withTyping, Recomputation.activity, Option.getD_some, hensured] at hactivity
    obtain ⟨htyping, hexpires⟩ := typing_expireProcessingIfNeeded (typingActivity cfg presence.activity typing expiresAt now) now
    rcases halters with h | h | h
    · exact h ((congrArg Activity.typing hactivity).trans htyping)
    · exact h ((congrArg Activity.typingExpiresAt hactivity).trans hexpires)
    · have hlapsed : (typingActivity cfg presence.activity typing expiresAt now).Lapsed now := h
      have hended := processing_of_lapsed hlapsed
      cases h.1.symm.trans ((congrArg Activity.processing hactivity).trans hended)
  | cleanupStale now =>
    simp only [Operation.recomputation, Option.mem_def, Option.ite_none_right_eq_some, Option.some.injEq] at hr
    obtain ⟨-, rfl⟩ := hr
    exact ⟨congrArg (toSnapshot · _) (hensured now), manual_expireManualIfNeeded _, countConnections_dropStale,
      fun h => .inl (hlapsed _ (hensured now) rfl h)⟩

theorem manual_or_changed {op : Operation} {x : AgentPresenceSnapshot} (h : Recomputes cfg s agentId x op r)
    (htracked : op.manual x = x.manual ∨ x.connectionCount ≠ op.leases cfg s agentId ∨ op.Alters cfg x ∨
      x.effectiveStatus ≠ resolveEffectiveStatus (op.manual x).1 x.connected x.activity) :
    r.settings.manual = x.manual ∨ r.Changed cfg := by
  obtain ⟨rfl, hmanual, hcount, halters⟩ := h
  rw [hmanual]
  refine htracked.imp_right fun htracked => ?_
  by_contra hsame
  simp only [Recomputation.Changed, not_or, not_not] at hsame
  obtain ⟨hstatus, hconnected, hstored, hactivity, hattributes⟩ := hsame
  rcases htracked with h | h | h
  · exact h (hstored.trans hcount)
  · exact (halters h).elim (· hactivity) (· hattributes)
  · refine h (hstatus.trans ?_)
    rw [Recomputation.newStatus, ← hconnected, ← hactivity, ← hmanual]
    rfl

end Recompute

section Run

variable {cfg : Config} {s : Tables} {agentId : AgentId} {op : Operation} {x : AgentPresenceSnapshot}

/-- A recomputation follows the snapshot of the row it finds, if the manual fields stay or the version rises. -/
theorem follows_recomputed {r : Recomputation} {settings : AgentStatusSettings}
    (h : r.settings.manual = settings.manual ∨ r.Changed cfg) :
    Follows (toSnapshot r.stored settings) (recomputeAndPersist cfg r).snapshot := by
  by_cases hchanged : r.Changed cfg
  · have hversion : (recomputeAndPersist cfg r).snapshot.version = r.stored.version + 1 := if_pos hchanged
    refine ⟨?_, fun hsame => ?_⟩
    · rw [hversion]
      exact Nat.le_succ _
    · rw [hversion] at hsame
      exact absurd hsame (Nat.ne_of_lt (Nat.lt_succ_self _))
  · have hversion : (recomputeAndPersist cfg r).snapshot.version = r.stored.version := if_neg hchanged
    refine ⟨hversion.symm.le, fun _ => ?_⟩
    have hmanual := h.resolve_right hchanged
    simp only [Recomputation.Changed, not_or, not_not] at hchanged
    obtain ⟨hstatus, hconnected, -, hactivity, hattributes⟩ := hchanged
    simp only [AgentPresenceSnapshot.shown, AgentPresenceSnapshot.manual, toSnapshot, recomputeAndPersist,
      Recomputation.presence, Shown.mk.injEq]
    exact ⟨hstatus, hconnected, hmanual.symm, hactivity, hattributes⟩

theorem follows_step (hx : x ∈ s.getSnapshot agentId) (htracked : Tracked cfg agentId s op) :
    ∃ y ∈ (op.apply cfg s).getSnapshot agentId, Follows x y := by
  rw [getSnapshot_apply]
  cases hr : op.recomputation cfg s agentId with
  | none => exact ⟨x, hx, .refl x⟩
  | some r =>
    refine ⟨(recomputeAndPersist cfg r).snapshot, rfl, ?_⟩
    have hrecomputes := recomputes hx hr
    have hmanual := manual_or_changed hrecomputes (htracked x hx (by rw [hr]; rfl))
    rw [← hrecomputes.stored] at hmanual ⊢
    exact follows_recomputed hmanual

theorem follows_run {actions : List Operation} {t : Tables} (hx : x ∈ s.getSnapshot agentId)
    (hmeets : (service cfg).Meets (Tracked cfg agentId) s actions) (hrun : (service cfg).run s actions = some t) :
    ∃ y ∈ t.getSnapshot agentId, Follows x y := by
  induction actions generalizing s x with
  | nil =>
    obtain rfl := Option.some.inj hrun
    exact ⟨x, hx, .refl x⟩
  | cons op rest ih =>
    obtain ⟨next, hnext, hrest⟩ := (service cfg).run_cons_eq_some.mp hrun
    obtain rfl : op.apply cfg s = next := Option.some.inj hnext
    obtain ⟨y, hy, hfollows⟩ := follows_step hx hmeets.1
    obtain ⟨z, hz, hfollows'⟩ := ih hy (hmeets.2 _ rfl) hrest
    exact ⟨z, hz, hfollows.trans hfollows'⟩

end Run

/-- Any two snapshots of the run, the earlier one first. -/
theorem version_identifies (cfg : Config) (start : Tables) (front back : List Operation) (mid s : Tables)
    (agentId : AgentId) (hmeets : (service cfg).Meets (Tracked cfg agentId) start (front ++ back))
    (hfront : (service cfg).run start front = some mid) (hback : (service cfg).run mid back = some s) :
    ∀ x ∈ mid.getSnapshot agentId, ∀ y ∈ s.getSnapshot agentId,
      x.version ≤ y.version ∧ (x.version = y.version → x.shown = y.shown) := by
  intro x hx y hy
  have hrest := ((service cfg).meets_append.mp hmeets).2 mid hfront
  obtain ⟨z, hz, hfollows⟩ := follows_run hx hrest hback
  obtain rfl : z = y := Option.some.inj (hz.symm.trans hy)
  exact ⟨hfollows.version, hfollows.shown⟩

def workday : List Operation :=
  [.markConnected "ag_a" "c_1" "hub" 1, .setProcessing "ag_a" true (some "audit") none 2,
    .setProcessing "ag_a" false none none 3, .cleanupStale 50000000]

theorem version_identifies_workday : ∃ mid s, (service defaultConfig).run {} (workday.take 1) = some mid ∧
    (service defaultConfig).run mid (workday.drop 1) = some s ∧
    (mid.getSnapshot "ag_a").map AgentPresenceSnapshot.version = some 1 ∧
    (s.getSnapshot "ag_a").map AgentPresenceSnapshot.version = some 4 ∧
    ∀ x ∈ mid.getSnapshot "ag_a", ∀ y ∈ s.getSnapshot "ag_a",
      x.version ≤ y.version ∧ (x.version = y.version → x.shown = y.shown) := by
  refine ⟨_, _, rfl, rfl, by decide +kernel, by decide +kernel, ?_⟩
  exact version_identifies _ {} (workday.take 1) (workday.drop 1) _ _ "ag_a" (by decide +kernel) rfl rfl

/-- A connected agent is given a message, and keeps its version. -/
theorem version_ambiguous : ∃ mid s, (service defaultConfig).run {} [.markConnected "ag_a" "c_1" "hub" 1] = some mid ∧
    (service defaultConfig).run mid [.setManualStatus "ag_a" .available (some "lunch") none 2] = some s ∧
    (mid.getSnapshot "ag_a").map AgentPresenceSnapshot.version = some 1 ∧
    (s.getSnapshot "ag_a").map AgentPresenceSnapshot.version = some 1 ∧
    (mid.getSnapshot "ag_a").map AgentPresenceSnapshot.manual = some (.available, none, none) ∧
    (s.getSnapshot "ag_a").map AgentPresenceSnapshot.manual = some (.available, some "lunch", none) :=
  ⟨_, _, rfl, rfl, by decide +kernel, by decide +kernel, by decide +kernel, by decide +kernel⟩

end BotCord.Presence
