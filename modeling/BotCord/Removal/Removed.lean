import BotCord.Foundation.Exchange
import BotCord.Removal.Hub

/-!
# A device that is removed

That a cleanup succeeds only on a positive ack to the `revoke_agent` that it sent holds of every run. But `_cleanup_still_applies`, the count of pending rows, what a removal loads and the handshake's look at `revoked_at` are each in a transaction of their own, `_finalize_removal_if_drained` does not look at agents at all, and a provisioning commits long after it has seen that the device is not revoked. Where what was looked at is still so at the commit, the rest holds too.
-/

namespace BotCord.Removal

/-- No active agent is bound to the device, and no cleanup of it is pending. -/
def Store.Empty (s : Store) (daemonInstanceId : InstanceId) : Prop :=
  (∀ a ∈ s.agents, a.status = .active → a.daemonInstanceId ≠ some daemonInstanceId) ∧
    ∀ c ∈ s.cleanups, c.daemonInstanceId = daemonInstanceId → c.status ≠ .pending
deriving Decidable

/-- A `revoke_agent` was sent for the agent, and then answered with ok. -/
def Answered (log : List Event) (daemonInstanceId : InstanceId) (agentId : AgentId) : Prop :=
  ∃ since before frame, log = since ++ .acked frame .ok :: before ∧ .sent frame daemonInstanceId agentId ∈ before

/-- Between two states a cleanup of the device sent `revoke_agent` for the agent. -/
def Hub.Sends (d d' : Hub) (daemonInstanceId : InstanceId) (agentId : AgentId) : Prop :=
  ∃ frame, d'.log = .sent frame daemonInstanceId agentId :: d.log

structure Hub.Removed (d : Hub) : Prop where
  succeeded : ∀ c ∈ d.store.cleanups, c.status = .succeeded → Answered d.log c.daemonInstanceId c.agentId
  empty : ∀ x ∈ d.store.instances, x.removalRequestedAt ≠ none → x.revokedAt ≠ none → d.store.Empty x.id
  offline : d.calls.rows = [] → ∀ x ∈ d.store.instances, x.revokedAt ≠ none → d.registry x.id = none

/-- The agent that a cleanup is about to send `revoke_agent` for. -/
def Call.target? : Call → Option (InstanceId × AgentId)
  | .send daemonInstanceId row _ => some (daemonInstanceId, row.agentId)
  | _ => none

/-- What a call finds when it commits, or registers. -/
def Hub.Meets (d : Hub) : Call → Prop
  | .removeCommit r =>
    if r.forget then
      (∀ a ∈ d.store.agents, a.status = .active → a.daemonInstanceId = some r.loaded.id → a.agentId ∈ r.agents) ∧
        ∀ c ∈ d.store.cleanups, c.daemonInstanceId = r.loaded.id → c.status = .pending →
          c.id ∈ r.pendingRows.map DaemonAgentCleanup.id
    else r.queued ≠ [] → ¬ d.store.Revoked r.loaded.id
  | .unbind loaded => ∀ daemonInstanceId ∈ loaded.daemonInstanceId, ¬ d.store.Revoked daemonInstanceId
  | .provisionCommit daemonInstanceId _ _ => ¬ d.store.Revoked daemonInstanceId
  | .finalizeCommit loaded => d.store.Empty loaded.id
  | .handshake daemonInstanceId => ¬ d.store.Revoked daemonInstanceId
  | _ => True

/-- The condition on a step. -/
def Hub.Careful (d : Hub) : Action → Prop
  | .bindAgent _ agentId daemonInstanceId => ¬ d.store.Revoked daemonInstanceId ∧
      ∀ r ∈ d.calls, r.call.target? ≠ some (daemonInstanceId, agentId)
  | .next i => ∀ r ∈ d.calls.get? i, d.Meets r.call
  | _ => True

instance (d : Hub) : DecidablePred d.Meets := fun _ => by
  unfold Hub.Meets
  split <;> infer_instance

instance (d : Hub) : DecidablePred d.Careful := fun _ => by
  unfold Hub.Careful
  split <;> infer_instance

/-! ### The invariant -/

namespace Store

variable (s : Store)

def HasAgent (agentId : AgentId) : Prop := ∃ a ∈ s.agents, a.agentId = agentId

/-- The row is one of the device's, as far as nothing changes it. -/
def HasRow (daemonInstanceId : InstanceId) (row : DaemonAgentCleanup) : Prop :=
  ∃ c ∈ s.cleanups, c.id = row.id ∧ c.daemonInstanceId = daemonInstanceId ∧ c.agentId = row.agentId

end Store

def Call.Held (s : Store) (log : List Event) : Call → Prop
  | .removePending r | .removeForget r | .removeCommit r => ∀ agentId ∈ r.agents, s.HasAgent agentId
  | .unbind loaded => s.HasAgent loaded.agentId
  | .drain daemonInstanceId rows => ∀ row ∈ rows, s.HasRow daemonInstanceId row
  | .stillApplies daemonInstanceId row rest => row.daemonInstanceId = daemonInstanceId ∧
      ∀ x ∈ row :: rest, s.HasRow daemonInstanceId x
  | .rebound daemonInstanceId row rest | .failed daemonInstanceId row rest _ | .retry daemonInstanceId row rest _ =>
    ∀ x ∈ row :: rest, s.HasRow daemonInstanceId x
  | .send daemonInstanceId row rest => (∀ x ∈ row :: rest, s.HasRow daemonInstanceId x) ∧
      ¬ s.Bound daemonInstanceId row.agentId
  | .wait daemonInstanceId row rest frame => (∀ x ∈ row :: rest, s.HasRow daemonInstanceId x) ∧
      .sent frame daemonInstanceId row.agentId ∈ log
  | .acked daemonInstanceId row rest ack | .answer daemonInstanceId row rest ack =>
    (∀ x ∈ row :: rest, s.HasRow daemonInstanceId x) ∧ (ack = .ok → Answered log daemonInstanceId row.agentId)
  | _ => True

/-- The call is on its way to take the connection out of the registry. -/
def Call.Ends (daemonInstanceId : InstanceId) (conn : ConnId) : Call → Prop
  | .push dev => dev = daemonInstanceId
  | .close dev conn' => dev = daemonInstanceId ∧ conn' = conn
  | _ => False

structure Inv (d : Hub) : Prop where
  known : ∀ c ∈ d.store.cleanups, d.store.HasAgent c.agentId
  succeeded : ∀ c ∈ d.store.cleanups, c.status = .succeeded → Answered d.log c.daemonInstanceId c.agentId
  empty : ∀ daemonInstanceId, d.store.Revoked daemonInstanceId → d.store.Empty daemonInstanceId
  offline : ∀ daemonInstanceId, d.store.Revoked daemonInstanceId → ∀ conn ∈ d.registry daemonInstanceId,
    ∃ r ∈ d.calls, r.call.Ends daemonInstanceId conn
  held : ∀ r ∈ d.calls, r.call.Held d.store d.log

def SameRow (c c' : DaemonAgentCleanup) : Prop :=
  c'.id = c.id ∧ c'.daemonInstanceId = c.daemonInstanceId ∧ c'.agentId = c.agentId

structure Turn (d : Hub) (s : Store) (log : List Event) : Prop where
  agents : ∀ agentId, d.store.HasAgent agentId → s.HasAgent agentId
  rows : ∀ daemonInstanceId row, d.store.HasRow daemonInstanceId row → s.HasRow daemonInstanceId row
  bound : ∀ r ∈ d.calls, ∀ p ∈ r.call.target?, s.Bound p.1 p.2 → d.store.Bound p.1 p.2
  known : ∀ c ∈ s.cleanups, s.HasAgent c.agentId
  succeeded : ∀ c ∈ s.cleanups, c.status = .succeeded → Answered log c.daemonInstanceId c.agentId
  empty : ∀ daemonInstanceId, s.Revoked daemonInstanceId → s.Empty daemonInstanceId
  log : ∃ events, log = events ++ d.log

variable {d d' : Hub} {s s' : Store} {log log' : List Event} {i : ℕ} {a : Action} {r : Request} {call : Call}
  {before after : Option Request} {daemonInstanceId : InstanceId} {agentId : AgentId} {row c : DaemonAgentCleanup}
  {rest : List DaemonAgentCleanup} {loaded : DaemonInstance} {f : DaemonAgentCleanup → DaemonAgentCleanup}

theorem Answered.append (h : Answered log daemonInstanceId agentId) (events : List Event) :
    Answered (events ++ log) daemonInstanceId agentId := by
  obtain ⟨since, before, frame, rfl, hsent⟩ := h
  exact ⟨events ++ since, before, frame, (List.append_assoc ..).symm, hsent⟩

theorem Call.Held.turn (h : call.Held d.store d.log) (hturn : Turn d s log)
    (hbound : ∀ p ∈ call.target?, s.Bound p.1 p.2 → d.store.Bound p.1 p.2) : call.Held s log := by
  obtain ⟨events, rfl⟩ := hturn.log
  have hrows : ∀ {daemonInstanceId : InstanceId} {rows : List DaemonAgentCleanup}, (∀ row ∈ rows, d.store.HasRow daemonInstanceId row) →
      ∀ row ∈ rows, s.HasRow daemonInstanceId row := fun hold row hrow => hturn.rows _ row (hold row hrow)
  cases call with
  | removePending | removeForget | removeCommit => exact fun agentId hagent => hturn.agents agentId (h agentId hagent)
  | unbind => exact hturn.agents _ h
  | drain | rebound | failed | retry => exact hrows h
  | stillApplies => exact ⟨h.1, hrows h.2⟩
  | send => exact ⟨hrows h.1, fun hnow => h.2 (hbound _ rfl hnow)⟩
  | wait => exact ⟨hrows h.1, List.mem_append_right _ h.2⟩
  | acked | answer => exact ⟨hrows h.1, fun hok => (h.2 hok).append events⟩
  | removeInstance | removeHosted | provisionAgent | provisionSend | provisionWait | provisionCommit | finalize
  | finalizeCount | finalizeCommit | push | close | handshake => trivial

theorem Inv.step (h : Inv d) (d' : Hub) (hcalls : d.calls.Exchange d'.calls before after) (hturn : Turn d d'.store d'.log)
    (hheld : ∀ r ∈ after, r.call.Held d'.store d'.log)
    (hoffline : ∀ daemonInstanceId, d'.store.Revoked daemonInstanceId → ∀ conn ∈ d'.registry daemonInstanceId,
      (∃ r ∈ after, r.call.Ends daemonInstanceId conn) ∨ (d.store.Revoked daemonInstanceId ∧
        conn ∈ d.registry daemonInstanceId) ∧ ∀ r ∈ before, ¬ r.call.Ends daemonInstanceId conn) : Inv d' := by
  refine ⟨hturn.known, hturn.succeeded, hturn.empty, fun daemonInstanceId hrevoked conn hconn => ?_, fun r hr => ?_⟩
  · rcases hoffline daemonInstanceId hrevoked conn hconn with ⟨r, hr, hends⟩ | ⟨⟨hrevoked, hconn⟩, hnot⟩
    · exact ⟨r, hcalls.new r hr, hends⟩
    · obtain ⟨r, hr, hends⟩ := h.offline daemonInstanceId hrevoked conn hconn
      exact ⟨r, hcalls.others r hr fun heq => hnot r heq.symm hends, hends⟩
  · rcases hcalls.cases r hr with ⟨hr, -⟩ | hr
    · exact (h.held r hr).turn hturn (hturn.bound r hr)
    · exact hheld r hr

theorem Inv.turn_log (h : Inv d) (events : List Event) : Turn d d.store (events ++ d.log) :=
  ⟨fun _ => id, fun _ _ => id, fun _ _ _ _ => id, h.known, fun c hc hstatus => (h.succeeded c hc hstatus).append events,
    h.empty, events, rfl⟩

theorem Inv.turn_self (h : Inv d) : Turn d d.store d.log := h.turn_log []

/-! ### Writes -/

/-- No binding is new, a row that was there is at most completed, and a row that is new is not pending under a device that is revoked. -/
theorem Inv.turn (h : Inv d) (hagents : ∀ agentId, d.store.HasAgent agentId → s.HasAgent agentId)
    (hbound : ∀ a' ∈ s.agents, ∀ dev, a'.daemonInstanceId = some dev →
      ∃ a ∈ d.store.agents, a.agentId = a'.agentId ∧ a.status = a'.status ∧ a.daemonInstanceId = some dev)
    (hkept : ∀ c ∈ d.store.cleanups, ∃ c' ∈ s.cleanups, SameRow c c')
    (hcases : ∀ c' ∈ s.cleanups,
      (∃ c ∈ d.store.cleanups, SameRow c c' ∧ (c'.status = .pending → c.status = .pending) ∧
        (c'.status = .succeeded → c.status = .succeeded ∨ Answered d.log c'.daemonInstanceId c'.agentId)) ∨
      s.HasAgent c'.agentId ∧ c'.status ≠ .succeeded ∧ (c'.status = .pending → ¬ s.Revoked c'.daemonInstanceId))
    (hempty : ∀ dev, s.Revoked dev → d.store.Revoked dev ∨ s.Empty dev) : Turn d s d.log := by
  refine ⟨hagents, fun dev row hrow => ?_, fun r _ p _ hnow => ?_, fun c' hc' => ?_, fun c' hc' hstatus => ?_,
    fun dev hrevoked => ?_, [], rfl⟩
  · obtain ⟨c, hc, hid, hdev, hagent⟩ := hrow
    obtain ⟨c', hc', hid', hdev', hagent'⟩ := hkept c hc
    exact ⟨c', hc', hid'.trans hid, hdev'.trans hdev, hagent'.trans hagent⟩
  · obtain ⟨a', ha', hid, hdev⟩ := hnow
    obtain ⟨a, ha, hid', -, hdev'⟩ := hbound a' ha' _ hdev
    exact ⟨a, ha, hid'.trans hid, hdev'⟩
  · rcases hcases c' hc' with ⟨c, hc, hsame, -⟩ | ⟨hagent, -⟩
    · rw [hsame.2.2]
      exact hagents _ (h.known c hc)
    · exact hagent
  · rcases hcases c' hc' with ⟨c, hc, hsame, -, hok⟩ | ⟨-, hnot, -⟩
    · rcases hok hstatus with hold | hanswered
      · rw [hsame.2.1, hsame.2.2]
        exact h.succeeded c hc hold
      · exact hanswered
    · exact absurd hstatus hnot
  · rcases hempty dev hrevoked with hold | hempty
    · obtain ⟨hnone, hdone⟩ := h.empty dev hold
      refine ⟨fun a' ha' hactive hdev => ?_, fun c' hc' hdev hpending => ?_⟩
      · obtain ⟨a, ha, -, hstatus, hdev'⟩ := hbound a' ha' dev hdev
        exact hnone a ha (hstatus.trans hactive) hdev'
      · rcases hcases c' hc' with ⟨c, hc, hsame, hold, -⟩ | ⟨-, -, hfree⟩
        · exact hdone c hc (hsame.2.1.symm.trans hdev) (hold hpending)
        · exact hfree hpending (hdev ▸ hrevoked)
    · exact hempty

theorem SameRow.refl (c : DaemonAgentCleanup) : SameRow c c := ⟨rfl, rfl, rfl⟩

theorem bound_self (s : Store) : ∀ a' ∈ s.agents, ∀ dev, a'.daemonInstanceId = some dev →
    ∃ a ∈ s.agents, a.agentId = a'.agentId ∧ a.status = a'.status ∧ a.daemonInstanceId = some dev :=
  fun a ha _ hdev => ⟨a, ha, rfl, rfl, hdev⟩

theorem rows_self (s : Store) : ∀ c ∈ s.cleanups, ∃ c' ∈ s.cleanups, SameRow c c' := fun c hc => ⟨c, hc, .refl c⟩

theorem Inv.turn_write (h : Inv d) (cleanupId : CleanupId) (hf : ∀ c, (f c).id = c.id) (hsame : ∀ c, SameRow c (f c))
    (hpending : ∀ c, (f c).status = .pending → c.status = .pending)
    (hok : ∀ c ∈ d.store.cleanups, c.id = cleanupId → (f c).status = .succeeded → c.status = .succeeded ∨
      Answered d.log c.daemonInstanceId c.agentId) : Turn d (d.store.write cleanupId f hf) d.log := by
  refine h.turn (fun _ => id) (bound_self d.store) (fun c hc => ⟨_, Keyed.mem_modify_of_mem hf hc, ?_⟩) (fun c' hc' => ?_)
    fun _ => .inl
  · split
    · exact hsame c
    · exact .refl c
  · obtain ⟨c, hc, rfl⟩ := (Keyed.mem_modify hf).mp hc'
    refine .inl ⟨c, hc, ?_⟩
    split
    · rename_i hid
      refine ⟨hsame c, hpending c, fun hstatus => ?_⟩
      rw [(hsame c).2.1, (hsame c).2.2]
      exact hok c hc hid hstatus
    · exact ⟨.refl c, id, .inl⟩

theorem Store.HasRow.eq (h : s.HasRow daemonInstanceId row) (hc : c ∈ s.cleanups) (hid : c.id = row.id) :
    c.daemonInstanceId = daemonInstanceId ∧ c.agentId = row.agentId := by
  obtain ⟨x, hx, hxid, hdev, hagent⟩ := h
  obtain rfl := Keyed.eq_of_key hc hx (hid.trans hxid.symm)
  exact ⟨hdev, hagent⟩

theorem enqueue_some {agents : List AgentId} (h : Store.enqueue daemonInstanceId f agents s = some s') :
    s'.agents = s.agents ∧ s'.instances = s.instances ∧ (∀ c ∈ s.cleanups, c ∈ s'.cleanups) ∧
      ∀ c ∈ s'.cleanups, c ∈ s.cleanups ∨ ∃ id, ∃ agentId ∈ agents, c = f { id, daemonInstanceId, agentId } := by
  induction agents generalizing s with
  | nil =>
    cases h
    exact ⟨rfl, rfl, fun _ => id, fun _ => .inl⟩
  | cons agentId rest ih =>
    obtain ⟨cleanups, hinsert, hrest⟩ := Option.bind_eq_some_iff.mp h
    have hadds := Keyed.insert?_eq_some hinsert
    obtain ⟨hagents, hinstances, hkept, hcases⟩ := ih hrest
    refine ⟨hagents, hinstances, fun c hc => hkept c (hadds.mem_iff.mpr (.inl hc)), fun c hc => ?_⟩
    rcases hcases c hc with hold | ⟨id, agentId', hmem, rfl⟩
    · rcases hadds.mem_iff.mp hold with hold | rfl
      · exact .inl hold
      · exact .inr ⟨_, agentId, List.mem_cons_self, rfl⟩
    · exact .inr ⟨id, agentId', List.mem_cons_of_mem _ hmem, rfl⟩

theorem column_none {α : Type} [DecidableEq α] {loaded current : Option α} {x : α}
    (h : Delivery.column loaded none current = some x) : current = some x := by
  rw [Delivery.column] at h
  split at h
  · exact h
  · cases h

section Agents

variable {p : Agent → Prop} [DecidablePred p] {g : Agent → Agent} (hg : ∀ a, (g a).agentId = a.agentId)

theorem hasAgent_modify (hagents : s'.agents = s.agents.modify p g hg) (h : s.HasAgent agentId) : s'.HasAgent agentId := by
  obtain ⟨a, ha, rfl⟩ := h
  rw [Store.HasAgent, hagents]
  refine ⟨_, Keyed.mem_modify_of_mem hg ha, ?_⟩
  split
  · exact hg a
  · rfl

theorem bound_modify (hagents : s'.agents = s.agents.modify p g hg) (hstatus : ∀ a, (g a).status = a.status)
    (hdev : ∀ a dev, (g a).daemonInstanceId = some dev → a.daemonInstanceId = some dev) :
    ∀ a' ∈ s'.agents, ∀ dev, a'.daemonInstanceId = some dev →
      ∃ a ∈ s.agents, a.agentId = a'.agentId ∧ a.status = a'.status ∧ a.daemonInstanceId = some dev := by
  intro a' ha' dev hbound
  rw [hagents] at ha'
  obtain ⟨a, ha, rfl⟩ := (Keyed.mem_modify hg).mp ha'
  refine ⟨a, ha, ?_⟩
  split at hbound
  · rename_i hp
    rw [if_pos hp]
    exact ⟨(hg a).symm, (hstatus a).symm, hdev a dev hbound⟩
  · rename_i hp
    rw [if_neg hp]
    exact ⟨rfl, rfl, hbound⟩

end Agents

theorem turn_unbind {loaded : Agent} (h : Inv d) (hread : d.store.HasAgent loaded.agentId) (hmeets : d.Meets (.unbind loaded))
    (hs : d.store.unbind loaded = some s) : Turn d s d.log ∧ ∀ dev, s.Revoked dev → d.store.Revoked dev := by
  obtain ⟨hagents, hinstances, hkept, hcases⟩ : s.agents = d.store.agents.modify (·.agentId = loaded.agentId) (·.unbind loaded)
        (fun a => a.agentId_unbind loaded) ∧ s.instances = d.store.instances ∧ (∀ c ∈ d.store.cleanups, c ∈ s.cleanups) ∧
      ∀ c ∈ s.cleanups, c ∈ d.store.cleanups ∨
        ∃ id, ∃ dev ∈ loaded.daemonInstanceId, c = { id, daemonInstanceId := dev, agentId := loaded.agentId } := by
    simp only [Store.unbind] at hs
    split at hs
    · obtain rfl := Option.some.inj hs
      exact ⟨rfl, rfl, fun _ => id, fun _ => .inl⟩
    · rename_i dev hdev
      obtain ⟨hagents, hinstances, hkept, hcases⟩ := enqueue_some hs
      refine ⟨hagents, hinstances, hkept, fun c hc => (hcases c hc).imp_right ?_⟩
      rintro ⟨id, agentId, hmem, rfl⟩
      rw [List.mem_singleton.mp hmem]
      exact ⟨id, dev, (Option.filter_eq_some_iff.mp hdev).1, rfl⟩
  have hrevoked : ∀ dev, s.Revoked dev → d.store.Revoked dev := fun dev hrevoked => by
    rw [Store.Revoked, hinstances] at hrevoked
    exact hrevoked
  refine ⟨h.turn (fun _ => hasAgent_modify _ hagents) (bound_modify _ hagents (fun _ => rfl) fun _ _ => column_none)
    (fun c hc => ⟨c, hkept c hc, .refl c⟩) (fun c hc => ?_) fun dev hdev => .inl (hrevoked dev hdev), hrevoked⟩
  rcases hcases c hc with hold | ⟨id, dev, hdev, rfl⟩
  · exact .inl ⟨c, hold, .refl c, fun h => h, .inl⟩
  · exact .inr ⟨hasAgent_modify _ hagents hread, fun h => (by cases h), fun _ hnow => hmeets dev hdev (hrevoked dev hnow)⟩

theorem forgetRow_cases (r : RemoveInstance) (now : Instant) (c : DaemonAgentCleanup) :
    r.forgetRow now c = c ∧ c.id ∉ r.pendingRows.map DaemonAgentCleanup.id ∨
      SameRow c (r.forgetRow now c) ∧ (r.forgetRow now c).status = .cancelled := by
  unfold RemoveInstance.forgetRow
  split
  · rename_i hfind
    refine .inl ⟨rfl, fun hmem => ?_⟩
    obtain ⟨loaded, hloaded, hid⟩ := List.mem_map.mp hmem
    exact List.find?_eq_none.mp hfind loaded hloaded (decide_eq_true hid)
  · exact .inr ⟨⟨rfl, rfl, rfl⟩, rfl⟩

theorem sameRow_forgetRow (r : RemoveInstance) (now : Instant) (c : DaemonAgentCleanup) : SameRow c (r.forgetRow now c) := by
  rcases forgetRow_cases r now c with ⟨hsame, -⟩ | ⟨hsame, -⟩
  · rw [hsame]
    exact .refl c
  · exact hsame

theorem insert_status (r : RemoveInstance) (now : Instant) (id : CleanupId) (agentId : AgentId) :
    (r.insert now { id, daemonInstanceId, agentId }).status = if r.forget then .cancelled else .pending := by
  unfold RemoveInstance.insert
  split <;> rfl

theorem sameRow_insert (r : RemoveInstance) (now : Instant) (c : DaemonAgentCleanup) : SameRow c (r.insert now c) := by
  unfold RemoveInstance.insert
  split <;> exact ⟨rfl, rfl, rfl⟩

theorem revokedAt_remove {x : DaemonInstance} {now : Instant} : (x.remove loaded now false).revokedAt = x.revokedAt := rfl

/-- A removal detaches what it loaded, and if the device is revoked there was nothing else. -/
theorem turn_remove {r : RemoveInstance} (h : Inv d) (hread : ∀ agentId ∈ r.agents, d.store.HasAgent agentId)
    (hmeets : d.Meets (.removeCommit r)) (hs : r.commit d.store = some s) :
    Turn d s d.log ∧ ∀ dev, s.Revoked dev → d.store.Revoked dev ∨ r.forget = true ∧ dev = r.loaded.id := by
  obtain ⟨s', henqueue, rfl⟩ := Option.map_eq_some_iff.mp hs
  obtain ⟨hagents, hinstances, hkept, hcases⟩ := enqueue_some henqueue
  have hagents : s'.agents = d.store.agents.modify (·.agentId ∈ r.agents) Agent.detach Agent.agentId_detach := hagents
  have hid : ∀ x : DaemonInstance, (x.remove r.loaded d.store.now r.forget).id = x.id := fun x => x.id_remove _ _ _
  have hrevoked : ∀ dev, (∃ x' ∈ s'.instances.modify (·.id = r.loaded.id) (·.remove r.loaded d.store.now r.forget) hid,
      x'.id = dev ∧ x'.revokedAt ≠ none) → d.store.Revoked dev ∨ r.forget = true ∧ dev = r.loaded.id := by
    rintro dev ⟨x', hx', rfl, hrevoked⟩
    obtain ⟨x, hx, rfl⟩ := (Keyed.mem_modify hid).mp hx'
    rw [hinstances] at hx
    split at hrevoked
    · rename_i hsame
      rw [if_pos hsame, hid]
      cases hforget : r.forget with
      | true => exact .inr ⟨rfl, hsame⟩
      | false =>
        rw [hforget, revokedAt_remove] at hrevoked
        exact .inl ⟨x, hx, rfl, hrevoked⟩
    · rename_i hother
      rw [if_neg hother]
      exact .inl ⟨x, hx, rfl, hrevoked⟩
  have hrows : ∀ c' ∈ s'.cleanups, (∃ c ∈ d.store.cleanups, c' = r.forgetRow d.store.now c) ∨
      ∃ id, ∃ agentId ∈ r.queued, c' = r.insert d.store.now { id, daemonInstanceId := r.loaded.id, agentId } := by
    intro c' hc'
    rcases hcases c' hc' with hold | hnew
    · obtain ⟨c, hc, rfl⟩ := (Keyed.mem_modify (r.id_forgetRow d.store.now)).mp hold
      exact .inl ⟨c, hc, if_pos trivial⟩
    · exact .inr hnew
  refine ⟨h.turn (fun _ => hasAgent_modify _ hagents) (bound_modify _ hagents (fun _ => rfl) fun _ _ hnone => by cases hnone)
    (fun c hc => ⟨r.forgetRow d.store.now c, hkept _ ?_, sameRow_forgetRow r _ c⟩) (fun c' hc' => ?_) fun dev hdev => ?_, hrevoked⟩
  · exact (Keyed.mem_modify (r.id_forgetRow d.store.now)).mpr ⟨c, hc, if_pos trivial⟩
  · rcases hrows c' hc' with ⟨c, hc, rfl⟩ | ⟨id, agentId, hqueued, rfl⟩
    · refine .inl ⟨c, hc, sameRow_forgetRow r _ c, ?_⟩
      rcases forgetRow_cases r d.store.now c with ⟨hsame, -⟩ | ⟨-, hcancelled⟩
      · rw [hsame]
        exact ⟨fun h => h, .inl⟩
      · rw [hcancelled]
        exact ⟨fun h => absurd h (by decide), fun h => absurd h (by decide)⟩
    · obtain ⟨-, hdev, hagent⟩ := sameRow_insert r d.store.now { id, daemonInstanceId := r.loaded.id, agentId }
      rw [hdev, hagent, insert_status]
      refine .inr ⟨hasAgent_modify _ hagents (hread agentId (List.mem_filter.mp hqueued).1), ?_, fun hpending hnow => ?_⟩
      · split <;> decide
      · have hforget : ¬ r.forget = true := by
          intro hforget
          rw [if_pos hforget] at hpending
          cases hpending
        rw [Hub.Meets, if_neg hforget] at hmeets
        rcases hrevoked _ hnow with hold | ⟨hforget', -⟩
        · exact hmeets (List.ne_nil_of_mem hqueued) hold
        · exact hforget hforget'
  · rcases hrevoked dev hdev with hold | ⟨hforget, rfl⟩
    · exact .inl hold
    · rw [Hub.Meets, if_pos hforget] at hmeets
      obtain ⟨hhosted, hloaded⟩ := hmeets
      refine .inr ⟨fun a' ha' hactive hbound => ?_, fun c' hc' hdev' hpending => ?_⟩
      · have ha' : a' ∈ s'.agents := ha'
        rw [hagents] at ha'
        obtain ⟨a, ha, rfl⟩ := (Keyed.mem_modify Agent.agentId_detach).mp ha'
        split at hbound
        · cases hbound
        · rename_i hother
          rw [if_neg hother] at hactive
          exact hother (hhosted a ha hactive hbound)
      · rcases hrows c' hc' with ⟨c, hc, rfl⟩ | ⟨id, agentId, -, rfl⟩
        · rcases forgetRow_cases r d.store.now c with ⟨hsame, hnot⟩ | ⟨-, hcancelled⟩
          · rw [hsame] at hdev' hpending
            exact hnot (hloaded c hc hdev' hpending)
          · rw [hcancelled] at hpending
            cases hpending
        · rw [insert_status, if_pos hforget] at hpending
          cases hpending

theorem turn_finalize (h : Inv d) (hmeets : d.Meets (.finalizeCommit loaded)) :
    Turn d (d.store.revoke loaded) d.log ∧
      ∀ dev, (d.store.revoke loaded).Revoked dev → d.store.Revoked dev ∨ dev = loaded.id := by
  have hrevoked : ∀ dev, (d.store.revoke loaded).Revoked dev → d.store.Revoked dev ∨ dev = loaded.id := by
    rintro dev ⟨x', hx', rfl, hrevoked⟩
    obtain ⟨x, hx, rfl⟩ := (Keyed.mem_modify fun x => x.id_revoke loaded d.store.now).mp hx'
    split at hrevoked
    · rename_i hsame
      rw [if_pos hsame]
      exact .inr hsame
    · rename_i hother
      rw [if_neg hother]
      exact .inl ⟨x, hx, rfl, hrevoked⟩
  refine ⟨h.turn (fun _ => id) (bound_self d.store) (rows_self d.store) (fun c hc => ?_) fun dev hdev => ?_, hrevoked⟩
  · exact .inl ⟨c, hc, .refl c, id, .inl⟩
  · rcases hrevoked dev hdev with hold | rfl
    · exact .inl hold
    · exact .inr hmeets

theorem target_eq {p : InstanceId × AgentId} (h : call.target? = some p) :
    ∃ row rest, call = .send p.1 row rest ∧ row.agentId = p.2 := by
  cases call with
  | send dev row rest =>
    cases h
    exact ⟨row, rest, rfl, rfl⟩
  | _ => cases h

theorem turn_provision {userId : UserId} (h : Inv d) (hmeets : ¬ d.store.Revoked daemonInstanceId)
    (hs : d.store.provision daemonInstanceId userId agentId = some s) :
    Turn d s d.log ∧ ∀ dev, s.Revoked dev → d.store.Revoked dev := by
  obtain ⟨agents, hinsert, rfl⟩ := Option.map_eq_some_iff.mp hs
  have hadds := Keyed.insert?_eq_some hinsert
  have hagents : ∀ {x}, d.store.HasAgent x → Store.HasAgent { d.store with agents } x := by
    rintro x ⟨a, ha, hid⟩
    exact ⟨a, hadds.mem_iff.mpr (.inl ha), hid⟩
  refine ⟨⟨fun _ => hagents, fun _ _ => id, fun r hr p hp hnow => ?_, fun c hc => hagents (h.known c hc), h.succeeded,
    fun dev hrevoked => ⟨fun a ha hactive hdev => ?_, (h.empty dev hrevoked).2⟩, [], rfl⟩, fun _ => id⟩
  · obtain ⟨a, ha, hid, hdev⟩ := hnow
    rcases hadds.mem_iff.mp ha with hold | rfl
    · exact ⟨a, hold, hid, hdev⟩
    · obtain ⟨row, rest, hcall, hrow⟩ := target_eq hp
      have hheld := h.held r hr
      rw [hcall] at hheld
      obtain ⟨c, hc, -, -, hagent⟩ := hheld.1 row List.mem_cons_self
      obtain ⟨x, hx, hxid⟩ := h.known c hc
      exact absurd (hxid.trans (hagent.trans (hrow.trans hid.symm))) (hadds.new x hx)
  · rcases hadds.mem_iff.mp ha with hold | rfl
    · exact (h.empty dev hrevoked).1 a hold hactive hdev
    · cases hdev
      exact hmeets hrevoked

theorem turn_bind {userId : UserId} (h : Inv d) (hmeets : d.Careful (.bindAgent userId agentId daemonInstanceId)) :
    Turn d { d.store with
      agents := d.store.agents.modify (·.agentId = agentId) (·.bind userId daemonInstanceId) fun a =>
        a.agentId_bind userId daemonInstanceId } d.log := by
  have hid : ∀ a : Agent, (a.bind userId daemonInstanceId).agentId = a.agentId := fun a => a.agentId_bind userId daemonInstanceId
  have hagents : ∀ {x}, d.store.HasAgent x → Store.HasAgent { d.store with
      agents := d.store.agents.modify (·.agentId = agentId) (·.bind userId daemonInstanceId) hid } x := hasAgent_modify hid rfl
  refine ⟨fun _ => hagents, fun _ _ => id, fun r hr p hp hnow => ?_, fun c hc => hagents (h.known c hc), h.succeeded,
    fun dev hrevoked => ⟨fun a' ha' hactive hdev => ?_, (h.empty dev hrevoked).2⟩, [], rfl⟩
  · obtain ⟨a', ha', hagent, hdev⟩ := hnow
    obtain ⟨a, ha, rfl⟩ := (Keyed.mem_modify hid).mp ha'
    split at hdev
    · rename_i hsame
      rw [if_pos hsame, hid] at hagent
      cases hdev
      refine absurd hp (?_ : r.call.target? ≠ some p)
      rw [show p = (p.1, agentId) from Prod.ext rfl (hagent.symm.trans hsame)]
      exact hmeets.2 r hr
    · rename_i hother
      rw [if_neg hother] at hagent
      exact ⟨a, ha, hagent, hdev⟩
  · obtain ⟨a, ha, rfl⟩ := (Keyed.mem_modify hid).mp ha'
    split at hdev
    · cases hdev
      exact hmeets.1 hrevoked
    · rename_i hother
      rw [if_neg hother] at hactive
      exact (h.empty dev hrevoked).1 a ha hactive hdev

/-! ### Steps -/

/-- What is sent is for an agent that the device does not have. -/
def Hub.Spares (d d' : Hub) : Prop :=
  ∀ daemonInstanceId agentId, d.Sends d' daemonInstanceId agentId → ¬ d.store.Bound daemonInstanceId agentId

theorem spares_of_log (h : d'.log = d.log) : d.Spares d' := by
  intro dev agentId hsends
  obtain ⟨frame, hlog⟩ := hsends
  rw [h] at hlog
  exact absurd hlog.symm (List.cons_ne_self _ _)

theorem exchange_goto (hr : d.calls.get? i = some r) (call : Call) :
    d.calls.Exchange (d.goto i call).calls (some r) (some (r.goto call)) := Keyed.exchange_modify (Request.id_goto call) hr

theorem exchange_finish (hr : d.calls.get? i = some r) : d.calls.Exchange (d.finish i).calls (some r) none :=
  Keyed.exchange_remove hr

theorem held_some (hheld : call.Held s log) : ∀ r' ∈ some (r.goto call), r'.call.Held s log := by
  intro r' hr'
  cases hr'
  exact hheld

section Move

variable {before : Call}

theorem not_ends_of_mem (hnot : ∀ dev conn, ¬ before.Ends dev conn) (dev : InstanceId) (conn : ConnId) :
    ∀ r ∈ some (⟨i, before⟩ : Request), ¬ r.call.Ends dev conn := by
  intro r hr
  cases hr
  exact hnot dev conn

theorem Inv.commit {j : ℕ} (h : Inv d) (hr : d.calls.get? i = some ⟨j, before⟩) (hnot : ∀ dev conn, ¬ before.Ends dev conn)
    (hturn : Turn d s d.log) (hheld : call.Held s d.log)
    (hrevoked : ∀ dev, s.Revoked dev → d.store.Revoked dev ∨ call = .push dev) :
    Inv (d.commit i s call) ∧ d.Spares (d.commit i s call) := by
  refine ⟨h.step (d.commit i s call) (exchange_goto hr call) hturn (held_some hheld) fun dev hdev conn hconn => ?_,
    spares_of_log rfl⟩
  rcases hrevoked dev hdev with hold | hpush
  · exact .inr ⟨⟨hold, hconn⟩, not_ends_of_mem hnot dev conn⟩
  · refine .inl ⟨_, rfl, ?_⟩
    show call.Ends dev conn
    rw [hpush]
    rfl

theorem Inv.goto {j : ℕ} (h : Inv d) (hr : d.calls.get? i = some ⟨j, before⟩) (hnot : ∀ dev conn, ¬ before.Ends dev conn)
    (hheld : call.Held d.store d.log) : Inv (d.goto i call) ∧ d.Spares (d.goto i call) :=
  h.commit hr hnot h.turn_self hheld fun _ => .inl

theorem Inv.finish {j : ℕ} (h : Inv d) (hr : d.calls.get? i = some ⟨j, before⟩) (hnot : ∀ dev conn, ¬ before.Ends dev conn)
    (hturn : Turn d s d.log) (hrevoked : ∀ dev, s.Revoked dev → d.store.Revoked dev) :
    Inv ({ d with store := s }.finish i) ∧ d.Spares ({ d with store := s }.finish i) := by
  refine ⟨h.step ({ d with store := s }.finish i) (exchange_finish hr) hturn (fun _ hr' => by cases hr')
    fun dev hdev conn hconn => .inr ⟨⟨hrevoked dev hdev, hconn⟩, not_ends_of_mem hnot dev conn⟩, spares_of_log rfl⟩

theorem Inv.leave {j : ℕ} (h : Inv d) (hr : d.calls.get? i = some ⟨j, before⟩) (hnot : ∀ dev conn, ¬ before.Ends dev conn) :
    Inv (d.finish i) ∧ d.Spares (d.finish i) := h.finish hr hnot h.turn_self fun _ => id

end Move

theorem hasRow_current (hrow : s.HasRow daemonInstanceId row) (hcurrent : s.current row = some c) :
    s.HasRow daemonInstanceId c ∧ c.daemonInstanceId = daemonInstanceId ∧ c.agentId = row.agentId := by
  obtain ⟨hget, -⟩ := Option.filter_eq_some_iff.mp hcurrent
  obtain ⟨hc, hid⟩ := Keyed.get?_eq_some_iff.mp hget
  obtain ⟨hdev, hagent⟩ := hrow.eq hc hid
  exact ⟨⟨c, hc, rfl, hdev, rfl⟩, hdev, hagent⟩

theorem hasRow_cons_current (h : ∀ x ∈ row :: rest, s.HasRow daemonInstanceId x) (hcurrent : s.current row = some c) :
    ∀ x ∈ c :: rest, s.HasRow daemonInstanceId x := by
  intro x hx
  rcases List.mem_cons.mp hx with rfl | hx
  · exact (hasRow_current (h row List.mem_cons_self) hcurrent).1
  · exact h x (List.mem_cons_of_mem _ hx)

theorem pending_hasRow (hrow : row ∈ s.pending daemonInstanceId) : s.HasRow daemonInstanceId row := by
  obtain ⟨hmem, hpending⟩ := List.mem_filter.mp hrow
  exact ⟨row, hmem, rfl, (of_decide_eq_true hpending).1, rfl⟩

theorem hosted_hasAgent {userId : UserId} (h : agentId ∈ s.hosted daemonInstanceId userId) : s.HasAgent agentId := by
  obtain ⟨a, ha, rfl⟩ := List.mem_map.mp h
  exact ⟨a, (List.mem_filter.mp ha).1, rfl⟩

theorem turn_answer {ack : Ack} (h : Inv d) (hrow : d.store.HasRow daemonInstanceId row)
    (hok : ack = .ok → Answered d.log daemonInstanceId row.agentId) :
    Turn d (d.store.write row.id (·.answer row d.store.now ack) fun c => c.id_answer row d.store.now ack) d.log := by
  refine h.turn_write _ _ (fun c => ?_) (fun c hpending => ?_) fun c hc hid hstatus => ?_
  · cases ack <;> exact ⟨rfl, rfl, rfl⟩
  · cases ack with
    | ok => cases hpending
    | error message code => exact hpending
  · cases ack with
    | ok =>
      obtain ⟨hdev, hagent⟩ := hrow.eq hc hid
      rw [hdev, hagent]
      exact .inr (hok rfl)
    | error message code => exact .inl hstatus

theorem next_inv {j : ℕ} (h : Inv d) (hmeets : d.Meets call) (hr : d.calls.get? i = some ⟨j, call⟩)
    (hnext : d.next i call = some d') : Inv d' ∧ d.Spares d' := by
  have hheld : call.Held d.store d.log := h.held ⟨j, call⟩ (Keyed.get?_eq_some_iff.mp hr).1
  cases call with
  | removeInstance loaded forgetIfOffline =>
    cases hnext
    exact h.goto hr (fun _ _ => id) trivial
  | removeHosted r =>
    cases hnext
    have hread : (Call.removePending { r with agents := d.store.hosted r.loaded.id r.loaded.userId }).Held d.store d.log :=
      fun _ => hosted_hasAgent
    exact h.goto hr (fun _ _ => id) hread
  | removePending r =>
    cases hnext
    refine h.goto hr (fun _ _ => id) ?_
    split <;> exact hheld
  | removeForget r =>
    cases hnext
    exact h.goto hr (fun _ _ => id) hheld
  | removeCommit r =>
    obtain ⟨s, hs, rfl⟩ := Option.map_eq_some_iff.mp hnext
    obtain ⟨hturn, hrevoked⟩ := turn_remove h hheld hmeets hs
    split
    · refine h.commit hr (fun _ _ => id) hturn trivial fun dev hdev => (hrevoked dev hdev).imp_right fun hnew => ?_
      rw [hnew.2]
    · rename_i hforget
      exact h.finish hr (fun _ _ => id) hturn fun dev hdev =>
        (hrevoked dev hdev).resolve_right fun hnew => hforget hnew.1
  | unbind loaded =>
    obtain ⟨s, hs, rfl⟩ := Option.map_eq_some_iff.mp hnext
    obtain ⟨hturn, hrevoked⟩ := turn_unbind h hheld hmeets hs
    exact h.finish hr (fun _ _ => id) hturn hrevoked
  | provisionAgent dev userId agentId =>
    simp only [Hub.next] at hnext
    split at hnext
    · cases hnext
      exact h.leave hr (fun _ _ => id)
    · cases hnext
      exact h.goto hr (fun _ _ => id) trivial
  | provisionSend dev userId agentId =>
    simp only [Hub.next] at hnext
    split at hnext
    · cases hnext
      exact h.leave hr (fun _ _ => id)
    · cases hnext
      exact h.goto hr (fun _ _ => id) trivial
  | provisionCommit dev userId agentId =>
    obtain ⟨s, hs, rfl⟩ := Option.map_eq_some_iff.mp hnext
    obtain ⟨hturn, hrevoked⟩ := turn_provision h hmeets hs
    exact h.finish hr (fun _ _ => id) hturn hrevoked
  | drain dev rows =>
    cases rows with
    | nil =>
      cases hnext
      exact h.goto hr (fun _ _ => id) trivial
    | cons row rest =>
      simp only [Hub.next] at hnext
      split at hnext
      · cases hnext
        have hrest : (Call.drain dev rest).Held d.store d.log := fun x hx => hheld x (List.mem_cons_of_mem _ hx)
        exact h.goto hr (fun _ _ => id) hrest
      · rename_i c hcurrent
        cases hnext
        have hread : (Call.stillApplies dev c rest).Held d.store d.log :=
          ⟨(hasRow_current (hheld row List.mem_cons_self) hcurrent).2.1, hasRow_cons_current hheld hcurrent⟩
        exact h.goto hr (fun _ _ => id) hread
  | stillApplies dev row rest =>
    obtain ⟨hdev, hrows⟩ := hheld
    simp only [Hub.next, hdev] at hnext
    split at hnext
    · cases hnext
      have hread : (Call.rebound dev row rest).Held d.store d.log := hrows
      exact h.goto hr (fun _ _ => id) hread
    · rename_i hbound
      cases hnext
      have hread : (Call.send dev row rest).Held d.store d.log := ⟨hrows, hbound⟩
      exact h.goto hr (fun _ _ => id) hread
  | rebound dev row rest =>
    cases hnext
    have hturn := h.turn_write row.id (fun c => c.id_rebound row d.store.now) (fun _ => ⟨rfl, rfl, rfl⟩)
      (fun _ h => by cases h) fun _ _ _ h => by cases h
    have hread : (Call.drain dev rest).Held (d.store.write row.id (·.rebound row d.store.now)
      fun c => c.id_rebound row d.store.now) d.log := fun x hx => hturn.rows _ x (hheld x (List.mem_cons_of_mem _ hx))
    exact h.commit hr (fun _ _ => id) hturn hread fun _ => .inl
  | send dev row rest =>
    simp only [Hub.next] at hnext
    split at hnext
    · cases hnext
      exact h.leave hr (fun _ _ => id)
    · cases hnext
      obtain ⟨hrows, hfree⟩ := hheld
      have hread : (Call.wait dev row rest d.drawn).Held d.store ([.sent d.drawn dev row.agentId] ++ d.log) :=
        ⟨hrows, List.mem_cons_self⟩
      refine ⟨h.step _ (exchange_goto hr _) (h.turn_log [.sent d.drawn dev row.agentId]) (held_some hread)
        fun dev' hrevoked conn hconn => .inr ⟨⟨hrevoked, hconn⟩, not_ends_of_mem (fun _ _ => id) dev' conn⟩, ?_⟩
      rintro dev' agentId ⟨frame, hlog⟩
      cases (List.cons.inj hlog).1
      exact hfree
  | acked dev row rest ack =>
    simp only [Hub.next] at hnext
    split at hnext
    · cases hnext
      have hrest : (Call.drain dev rest).Held d.store d.log := fun x hx => hheld.1 x (List.mem_cons_of_mem _ hx)
      exact h.goto hr (fun _ _ => id) hrest
    · rename_i c hcurrent
      cases hnext
      obtain ⟨-, -, hagent⟩ := hasRow_current (hheld.1 row List.mem_cons_self) hcurrent
      have hread : (Call.answer dev c rest ack).Held d.store d.log :=
        ⟨hasRow_cons_current hheld.1 hcurrent, fun hok => hagent ▸ hheld.2 hok⟩
      exact h.goto hr (fun _ _ => id) hread
  | answer dev row rest ack =>
    cases hnext
    have hturn := turn_answer h (hheld.1 row List.mem_cons_self) hheld.2
    have hread : (Call.drain dev rest).Held (d.store.write row.id (·.answer row d.store.now ack)
      fun c => c.id_answer row d.store.now ack) d.log := fun x hx => hturn.rows _ x (hheld.1 x (List.mem_cons_of_mem _ hx))
    exact h.commit hr (fun _ _ => id) hturn hread fun _ => .inl
  | failed dev row rest detail =>
    simp only [Hub.next] at hnext
    split at hnext
    · cases hnext
      have hrest : (Call.drain dev rest).Held d.store d.log := fun x hx => hheld x (List.mem_cons_of_mem _ hx)
      exact h.goto hr (fun _ _ => id) hrest
    · rename_i c hcurrent
      cases hnext
      have hread : (Call.retry dev c rest detail).Held d.store d.log := hasRow_cons_current hheld hcurrent
      exact h.goto hr (fun _ _ => id) hread
  | retry dev row rest detail =>
    cases hnext
    have hturn := h.turn_write row.id (fun c => c.id_retry row detail) (fun _ => ⟨rfl, rfl, rfl⟩)
      (fun _ => id) fun _ _ _ => .inl
    have hread : (Call.drain dev rest).Held (d.store.write row.id (·.retry row detail) fun c => c.id_retry row detail) d.log :=
      fun x hx => hturn.rows _ x (hheld x (List.mem_cons_of_mem _ hx))
    exact h.commit hr (fun _ _ => id) hturn hread fun _ => .inl
  | finalize dev =>
    simp only [Hub.next] at hnext
    split at hnext
    · cases hnext
      exact h.leave hr (fun _ _ => id)
    · cases hnext
      exact h.goto hr (fun _ _ => id) trivial
  | finalizeCount loaded =>
    simp only [Hub.next] at hnext
    split at hnext
    · cases hnext
      exact h.goto hr (fun _ _ => id) trivial
    · cases hnext
      exact h.leave hr (fun _ _ => id)
  | finalizeCommit loaded =>
    cases hnext
    obtain ⟨hturn, hrevoked⟩ := turn_finalize h hmeets
    refine h.commit hr (fun _ _ => id) hturn trivial fun dev hdev => (hrevoked dev hdev).imp_right fun hnew => ?_
    rw [hnew]
  | push dev =>
    simp only [Hub.next] at hnext
    split at hnext
    · rename_i hnone
      cases hnext
      refine ⟨h.step _ (exchange_finish hr) h.turn_self (fun _ hr' => by cases hr') fun dev' hrevoked conn hconn =>
        .inr ⟨⟨hrevoked, hconn⟩, fun r hr' hends => ?_⟩, spares_of_log rfl⟩
      cases hr'
      obtain rfl : dev = dev' := hends
      exact Option.not_mem_none _ (hnone ▸ hconn)
    · rename_i conn hsome
      cases hnext
      refine ⟨h.step _ (exchange_goto hr _) h.turn_self (held_some trivial) fun dev' hrevoked conn' hconn => ?_,
        spares_of_log rfl⟩
      by_cases hdev : dev = dev'
      · subst hdev
        cases hsome.symm.trans hconn
        exact .inl ⟨_, rfl, rfl, rfl⟩
      · refine .inr ⟨⟨hrevoked, hconn⟩, fun r hr' hends => ?_⟩
        cases hr'
        exact hdev hends
  | close dev conn =>
    cases hnext
    split
    · refine ⟨h.step _ (exchange_finish hr) h.turn_self (fun _ hr' => by cases hr') fun dev' hrevoked conn' hconn => ?_,
        spares_of_log rfl⟩
      have hconn : conn' ∈ Function.update d.registry dev none dev' := hconn
      rcases eq_or_ne dev' dev with rfl | hdev
      · rw [Function.update_self] at hconn
        cases hconn
      · rw [Function.update_of_ne hdev] at hconn
        refine .inr ⟨⟨hrevoked, hconn⟩, fun r hr' hends => ?_⟩
        cases hr'
        exact hdev hends.1.symm
    · rename_i hother
      refine ⟨h.step _ (exchange_finish hr) h.turn_self (fun _ hr' => by cases hr') fun dev' hrevoked conn' hconn =>
        .inr ⟨⟨hrevoked, hconn⟩, fun r hr' hends => ?_⟩, spares_of_log rfl⟩
      cases hr'
      obtain ⟨rfl, rfl⟩ : dev = dev' ∧ conn = conn' := hends
      exact hother hconn
  | handshake dev =>
    cases hnext
    refine ⟨h.step _ (exchange_finish hr) h.turn_self (fun _ hr' => by cases hr') fun dev' hrevoked conn hconn => ?_,
      spares_of_log rfl⟩
    have hconn : conn ∈ Function.update d.registry dev (some d.drawn) dev' := hconn
    rcases eq_or_ne dev' dev with rfl | hdev
    · exact absurd hrevoked hmeets
    · rw [Function.update_of_ne hdev] at hconn
      exact .inr ⟨⟨hrevoked, hconn⟩, not_ends_of_mem (fun _ _ => id) dev' conn⟩
  | provisionWait | wait => cases hnext

theorem ack_inv {j : ℕ} {ack : Ack} (h : Inv d) (hr : d.calls.get? i = some ⟨j, call⟩) (hack : d.ack i ack call = some d') :
    Inv d' ∧ d.Spares d' := by
  have hheld : call.Held d.store d.log := h.held ⟨j, call⟩ (Keyed.get?_eq_some_iff.mp hr).1
  cases call with
  | provisionWait dev userId agentId =>
    cases hack
    split
    · exact h.goto hr (fun _ _ => id) trivial
    · exact h.leave hr fun _ _ => id
  | wait dev row rest frame =>
    cases hack
    obtain ⟨hrows, hsent⟩ := hheld
    have hread : (Call.acked dev row rest ack).Held d.store ([.acked frame ack] ++ d.log) :=
      ⟨hrows, fun hok => ⟨[], d.log, frame, by rw [hok]; rfl, hsent⟩⟩
    have hnot : ∀ dev' conn, ¬ (Call.wait dev row rest frame).Ends dev' conn := fun _ _ => id
    refine ⟨h.step _ (exchange_goto hr _) (h.turn_log [.acked frame ack]) (held_some hread) fun dev' hrevoked conn hconn =>
      .inr ⟨⟨hrevoked, hconn⟩, not_ends_of_mem hnot dev' conn⟩, ?_⟩
    rintro dev' agentId ⟨frame', hlog⟩
    cases (List.cons.inj hlog).1
  | _ => cases hack

theorem fail_inv {j : ℕ} {detail : String} (h : Inv d) (hr : d.calls.get? i = some ⟨j, call⟩)
    (hfail : d.fail i detail call = some d') : Inv d' ∧ d.Spares d' := by
  have hheld : call.Held d.store d.log := h.held ⟨j, call⟩ (Keyed.get?_eq_some_iff.mp hr).1
  cases call with
  | provisionWait dev userId agentId =>
    cases hfail
    exact h.leave hr fun _ _ => id
  | wait dev row rest frame =>
    cases hfail
    have hread : (Call.failed dev row rest detail).Held d.store d.log := hheld.1
    exact h.goto hr (fun _ _ => id) hread
  | _ => cases hfail

theorem Inv.begin (h : Inv d) (hheld : call.Held d.store d.log) (hbegin : d.begin i call = some d') : Inv d' ∧ d.Spares d' := by
  obtain ⟨calls, hinsert, rfl⟩ := Option.map_eq_some_iff.mp hbegin
  refine ⟨h.step _ (Keyed.insert?_eq_some hinsert).exchange h.turn_self (fun r hr => ?_) fun dev hrevoked conn hconn =>
    .inr ⟨⟨hrevoked, hconn⟩, fun _ hr => by cases hr⟩, spares_of_log rfl⟩
  cases hr
  exact hheld

theorem Inv.write (h : Inv d) (hturn : Turn d s d.log) (hrevoked : ∀ dev, s.Revoked dev → d.store.Revoked dev) :
    Inv { d with store := s } ∧ d.Spares { d with store := s } :=
  ⟨h.step _ (.refl _) hturn (fun _ hr => by cases hr) fun dev hdev conn hconn =>
    .inr ⟨⟨hrevoked dev hdev, hconn⟩, fun _ hr => by cases hr⟩, spares_of_log rfl⟩

theorem step_inv (h : Inv d) (hmeets : d.Careful a) (hstep : hub.step d a = some d') : Inv d' ∧ d.Spares d' := by
  cases a with
  | tick seconds =>
    cases hstep
    exact h.write (h.turn (fun _ => id) (bound_self d.store) (rows_self d.store)
      (fun c hc => .inl ⟨c, hc, .refl c, id, .inl⟩) fun _ => .inl) fun _ => id
  | bindAgent userId agentId daemonInstanceId =>
    obtain ⟨-, hstep⟩ := Option.ite_none_right_eq_some.mp hstep
    cases hstep
    exact h.write (turn_bind h hmeets) fun _ => id
  | removeInstance i userId daemonInstanceId forgetIfOffline =>
    obtain ⟨x, -, hbegin⟩ := Option.bind_eq_some_iff.mp hstep
    have hheld : (Call.removeInstance x forgetIfOffline).Held d.store d.log := trivial
    exact h.begin hheld hbegin
  | unbindAgent i userId agentId =>
    obtain ⟨loaded, hloaded, hbegin⟩ := Option.bind_eq_some_iff.mp hstep
    have hmem := (Keyed.get?_eq_some_iff.mp (Option.filter_eq_some_iff.mp hloaded).1).1
    have hheld : (Call.unbind loaded).Held d.store d.log := ⟨loaded, hmem, rfl⟩
    exact h.begin hheld hbegin
  | provisionAgent i userId daemonInstanceId agentId =>
    obtain ⟨x, -, hbegin⟩ := Option.bind_eq_some_iff.mp hstep
    have hheld : (Call.provisionAgent daemonInstanceId userId agentId).Held d.store d.log := trivial
    exact h.begin hheld hbegin
  | processPendingDaemonCleanups i daemonInstanceId =>
    have hheld : (Call.drain daemonInstanceId ((d.store.pending daemonInstanceId).take 50)).Held d.store d.log :=
      fun row hrow => pending_hasRow (List.mem_of_mem_take hrow)
    exact h.begin hheld hstep
  | connect i daemonInstanceId =>
    obtain ⟨x, -, hbegin⟩ := Option.bind_eq_some_iff.mp hstep
    have hheld : (Call.handshake daemonInstanceId).Held d.store d.log := trivial
    exact h.begin hheld hbegin
  | disconnect daemonInstanceId =>
    cases hstep
    refine ⟨h.step _ (.refl _) h.turn_self (fun _ hr => by cases hr) fun dev hrevoked conn hconn =>
      .inr ⟨⟨hrevoked, ?_⟩, fun _ hr => by cases hr⟩, spares_of_log rfl⟩
    have hconn : conn ∈ Function.update d.registry daemonInstanceId none dev := hconn
    rcases eq_or_ne dev daemonInstanceId with rfl | hdev
    · rw [Function.update_self] at hconn
      cases hconn
    · rwa [Function.update_of_ne hdev] at hconn
  | next i =>
    obtain ⟨r, hr, hnext⟩ := Option.bind_eq_some_iff.mp hstep
    exact next_inv h (hmeets r hr) hr hnext
  | ack i ack =>
    obtain ⟨r, hr, hack⟩ := Option.bind_eq_some_iff.mp hstep
    exact ack_inv h hr hack
  | fail i detail =>
    obtain ⟨r, hr, hfail⟩ := Option.bind_eq_some_iff.mp hstep
    exact fail_inv h hr hfail

/-- Agents and devices there may be any, but nothing was cleaned up or revoked yet. -/
def opened (agents : Keyed Agent.agentId) (instances : Keyed DaemonInstance.id) : Hub := { store := { agents, instances } }

theorem inv_opened {agents : Keyed Agent.agentId} {instances : Keyed DaemonInstance.id}
    (h : ∀ x ∈ instances, x.revokedAt = none) : Inv (opened agents instances) := by
  have hnone : ∀ dev, ¬ (opened agents instances).store.Revoked dev := by
    rintro dev ⟨x, hx, -, hrevoked⟩
    exact hrevoked (h x hx)
  exact ⟨fun _ hc => (by cases hc), fun _ hc => (by cases hc), fun dev hdev => absurd hdev (hnone dev),
    fun dev hdev => absurd hdev (hnone dev), fun _ hr => (by cases hr)⟩

theorem Inv.removed (h : Inv d) : d.Removed := by
  refine ⟨h.succeeded, fun x hx _ hrevoked => h.empty x.id ⟨x, hx, rfl, hrevoked⟩, fun hcalls x hx hrevoked => ?_⟩
  cases hconn : d.registry x.id with
  | none => rfl
  | some conn =>
    obtain ⟨r, hr, -⟩ := h.offline x.id ⟨x, hx, rfl, hrevoked⟩ conn hconn
    rw [Keyed.mem_def, hcalls] at hr
    cases hr

/-- In a run whose steps all meet the condition, no cleanup sends for an agent that the device has, and a device that was removed is empty and, when everything has ended, offline. -/
theorem removals_sound {agents : Keyed Agent.agentId} {instances : Keyed DaemonInstance.id} {actions : List Action}
    (hfresh : ∀ x ∈ instances, x.revokedAt = none)
    (hmeets : hub.Meets Hub.Careful (opened agents instances) (actions ++ [a]))
    (hrun : hub.run (opened agents instances) actions = some d) (hstep : hub.step d a = some d') :
    d.Spares d' ∧ d'.Removed := by
  obtain ⟨hfront, hlast⟩ := hub.meets_append.mp hmeets
  have hinv : Inv d := hub.run_invariant_of_meets (fun _ _ _ h hmeets hstep => (step_inv h hmeets hstep).1)
    (inv_opened hfresh) hfront hrun
  obtain ⟨hinv', hspares⟩ := step_inv hinv (hlast d hrun).1 hstep
  exact ⟨hspares, hinv'.removed⟩

/-- One device with one agent. -/
def desk : Hub :=
  opened { rows := [{ agentId := "ag_1", userId := some "u_1", daemonInstanceId := some "dm_1" }], distinct := by decide }
    { rows := [{ id := "dm_1", userId := "u_1" }], distinct := by decide }

/-- The device is online and removed, and waits for the ack of the cleanup. -/
def removes : List Action :=
  [.connect 1 "dm_1", .next 1, .removeInstance 2 "u_1" "dm_1" false, .next 2, .next 2, .next 2, .next 2,
    .processPendingDaemonCleanups 3 "dm_1", .next 3, .next 3, .next 3]

/-- The ack comes, and the removal is about to be finalized. -/
def drains : List Action := [.ack 3 .ok, .next 3, .next 3, .next 3, .next 3, .next 3]

/-- The device is revoked and closed. -/
theorem removed_sound : ∃ d d', hub.run desk (removes ++ drains ++ [.next 3, .next 3]) = some d ∧
    hub.step d (.next 3) = some d' ∧ d'.calls.rows = [] ∧ d'.store.Revoked "dm_1" ∧ d.Spares d' ∧ d'.Removed := by
  have hrun : (hub.run desk (removes ++ drains ++ [.next 3, .next 3])).any (fun d =>
      (hub.step d (.next 3)).any fun d' => d'.calls.rows = [] ∧ d'.store.Revoked "dm_1") = true := by
    decide +kernel
  obtain ⟨d, hrun, hstep⟩ := (Option.any_eq_true _ _).mp hrun
  obtain ⟨d', hstep, hended⟩ := (Option.any_eq_true _ _).mp hstep
  obtain ⟨hcalls, hrevoked⟩ := of_decide_eq_true hended
  obtain ⟨hspares, hremoved⟩ := removals_sound (by decide +kernel) (by decide +kernel) hrun hstep
  exact ⟨d, d', hrun, hstep, hcalls, hrevoked, hspares, hremoved⟩

/-- A second agent is provisioned on the device while the cleanup of the first waits, and is there when the device is revoked. -/
theorem provisioned_on_removed : ¬ ∀ (actions : List Action) (a : Action) (d d' : Hub), hub.run desk actions = some d →
    hub.step d a = some d' → d.Spares d' ∧ d'.Removed := by
  intro hsound
  have hrun : (hub.run desk (removes ++ [.provisionAgent 4 "u_1" "dm_1" "ag_2", .next 4, .next 4, .ack 4 .ok, .next 4] ++
      drains)).any (fun d => (hub.step d (.next 3)).any fun d' => ∃ x ∈ d'.store.instances,
        x.removalRequestedAt ≠ none ∧ x.revokedAt ≠ none ∧ ¬ d'.store.Empty x.id) = true := by
    decide +kernel
  obtain ⟨d, hrun, hstep⟩ := (Option.any_eq_true _ _).mp hrun
  obtain ⟨d', hstep, hleft⟩ := (Option.any_eq_true _ _).mp hstep
  obtain ⟨x, hx, hrequested, hrevoked, hnot⟩ := of_decide_eq_true hleft
  exact hnot ((hsound _ _ d d' hrun hstep).2.empty x hx hrequested hrevoked)

end BotCord.Removal
