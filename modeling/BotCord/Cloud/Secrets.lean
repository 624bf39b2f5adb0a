import BotCord.Cloud.Steps

/-!
# Private keys of cloud agents

An agent's private key should be in its metadata only while it waits to be installed, with the public half among its active signing keys. The calls come one after the other here, as the metadata of one call can be overwritten by another. Four branches leave a key behind: the provider raises while an agent is created, it answers a resumption with the status that the agent gets, the daemon cannot be asked whether it has an agent, and an agent is paused.
-/

namespace BotCord.Cloud

variable {d d' : Hub} {t t' x : Task} {i : ℕ} {a : Action} {s : Session} {point : Point} {outcome : Outcome}
  {tables tables' : Tables} {now : Delivery.Instant}

def CloudAgentInstance.credentials? (a : CloudAgentInstance) : Option Credentials := a.provisioning.bind Provisioning.credentials

def CloudAgentInstance.signingKey (a : CloudAgentInstance) (c : Credentials) : SigningKey where
  agentId := a.agentId
  keyId := c.keyId
  keyPair := c.keyPair

/-- An agent has a private key while it is provisioned, with an active signing key, and at no other time. -/
structure CloudAgentInstance.Sealed (keys : List SigningKey) (a : CloudAgentInstance) : Prop where
  scrubbed : a.status ≠ .provisioning → a.credentials? = none
  installable : a.status = .provisioning → ∃ c ∈ a.credentials?, a.signingKey c ∈ keys

def Hub.Sealed (d : Hub) : Prop := ∀ a ∈ d.tables.agents, a.Sealed d.tables.keys

def sequence : System Hub Action where
  step d a := if (a.begins? d.now).isSome = true ∧ d.calls.rows ≠ [] then none else hub.step d a

/-- The condition on what a call does with a reply. -/
def Task.Sealing (t : Task) (reply : Reply) (outcome : Outcome) : Prop :=
  match t.point, reply, outcome with
  | .create .provider, .raised _, _ => False
  | .resume _ .probe, .listed (.error _), _ => ∀ cai ∈ t.session.agents, cai.current.credentials? = none
  | .resume _ .provider, .handle handle, _ => handle.status ≠ .ready ∧ handle.status ≠ .failed
  | .pause _, _, .commit _ s => ∀ cai ∈ s.agents, cai.current.credentials? = none
  | _, _, _ => True

/-- The condition on a step. -/
def Hub.Sealing (d : Hub) : Action → Prop
  | .next i reply => ∀ t ∈ d.calls.get? i, ∀ outcome ∈ t.point.next d.world t.session reply, t.Sealing reply outcome
  | _ => True

instance (t : Task) (reply : Reply) (outcome : Outcome) : Decidable (t.Sealing reply outcome) := by
  unfold Task.Sealing
  split <;> infer_instance

instance (d : Hub) : DecidablePred d.Sealing := fun _ => by
  unfold Hub.Sealing
  split <;> infer_instance

section Agents

variable {keys keys' : List SigningKey} {r r' : CloudAgentInstance} {cai cai' : CloudAgent}

theorem CloudAgentInstance.Sealed.congr (h : r.Sealed keys) (hid : r'.agentId = r.agentId) (hstatus : r'.status = r.status)
    (hcredentials : r'.credentials? = r.credentials?) : r'.Sealed keys := by
  refine ⟨fun hne => ?_, fun hprovisioning => ?_⟩
  · rw [hcredentials]
    exact h.scrubbed (hstatus ▸ hne)
  · obtain ⟨c, hc, hkey⟩ := h.installable (hstatus.symm.trans hprovisioning)
    refine ⟨c, hcredentials ▸ hc, ?_⟩
    rw [CloudAgentInstance.signingKey, hid]
    exact hkey

theorem CloudAgentInstance.Sealed.mono (h : r.Sealed keys) (hkeys : ∀ key ∈ keys, key ∈ keys') : r.Sealed keys' := by
  refine ⟨h.scrubbed, fun hprovisioning => ?_⟩
  obtain ⟨c, hc, hkey⟩ := h.installable hprovisioning
  exact ⟨c, hc, hkeys _ hkey⟩

theorem sealed_of_none (hstatus : r.status ≠ .provisioning) (hnone : r.credentials? = none) : r.Sealed keys :=
  ⟨fun _ => hnone, fun hprovisioning => absurd hprovisioning hstatus⟩

theorem credentials_scrub (cai : CloudAgent) : (scrubProvisioningMetadata cai).current.credentials? = none := by
  unfold scrubProvisioningMetadata CloudAgentInstance.credentials?
  split
  · rename_i hnone
    rw [hnone, Option.bind_none]
  · rfl

theorem sealed_scrub (hstatus : cai.current.status ≠ .provisioning) : (scrubProvisioningMetadata cai).current.Sealed keys := by
  refine sealed_of_none ?_ (credentials_scrub cai)
  rw [status_scrubProvisioningMetadata]
  exact hstatus

theorem credentials_tag (cai : CloudAgent) (launchToken : Token) :
    (tagProvisioning cai launchToken).current.credentials? = cai.current.credentials? := by
  show (cai.current.provisioning.getD {}).credentials = cai.current.provisioning.bind Provisioning.credentials
  cases cai.current.provisioning with
  | none => rfl
  | some p => rfl

theorem sealed_tag (h : cai.current.Sealed keys) (launchToken : Token) : (tagProvisioning cai launchToken).current.Sealed keys :=
  h.congr rfl rfl (credentials_tag cai launchToken)

theorem sealed_ensure (h : cai.current.Sealed keys) (fresh : Drawn) (token : Token) (hid : r.agentId = cai.current.agentId)
    (hstatus : r.status = .provisioning)
    (hcredentials : r.credentials? = (ensureProvisioningMetadata cai fresh token).1.current.credentials?) :
    r.Sealed (keys ++ (ensureProvisioningMetadata cai fresh token).2) := by
  refine ⟨fun hne => absurd hstatus hne, fun _ => ?_⟩
  rw [hcredentials]
  unfold CloudAgentInstance.signingKey
  rw [hid]
  unfold ensureProvisioningMetadata
  split
  · rename_i c hc
    have hprovisioning : cai.current.status = .provisioning := by
      by_contra hne
      have hnone : cai.current.credentials? = none := h.scrubbed hne
      rw [CloudAgentInstance.credentials?, hc] at hnone
      cases hnone
    obtain ⟨c', hc', hkey⟩ := h.installable hprovisioning
    exact ⟨c', hc', List.mem_append_left _ hkey⟩
  · exact ⟨⟨fresh, fresh⟩, rfl, List.mem_append_right _ (List.mem_singleton_self _)⟩

end Agents

/-! ### Sessions -/

/-- An object of a session has the status and the provisioning of its row, or of what was flushed of it. -/
def Faithful (tables : Tables) (cai : CloudAgent) : Prop :=
  ∃ b ∈ tables.agents, b.agentId = cai.loaded.agentId ∧ (cai.flushed.getD b).status = cai.loaded.status ∧
    (cai.flushed.getD b).provisioning = cai.loaded.provisioning

/-- The objects of a session are those of their rows, one for each agent. -/
structure Mirrors (tables : Tables) (s : Session) : Prop where
  faithful : ∀ cai ∈ s.agents, Faithful tables cai
  distinct : (s.agents.map fun cai => cai.loaded.agentId).Nodup

/-- A session whose commit seals: its objects and the agent it creates are sealed under the keys it brings in, and it revokes none. -/
structure Guarded (tables : Tables) (s : Session) : Prop where
  mirrors : Mirrors tables s
  agents : ∀ cai ∈ s.agents, cai.current.Sealed (tables.keys ++ s.keys)
  created : ∀ cai ∈ s.created, cai.Sealed (tables.keys ++ s.keys)
  revoked : s.revoked = []

section Sessions

variable {cai cai' : CloudAgent} {b : CloudAgentInstance}

theorem faithful_load (hb : b ∈ tables.agents) : Faithful tables (.load _ b) := ⟨b, hb, rfl, rfl, rfl⟩

theorem Faithful.follows (h : Faithful tables cai) (hfollows : cai.Follows cai') : Faithful tables cai' := by
  obtain ⟨b, hb, hid, hstatus, hprovisioning⟩ := h
  refine ⟨b, hb, ?_, ?_, ?_⟩
  · rw [hfollows.1]
    exact hid
  · rw [hfollows.1, hfollows.2]
    exact hstatus
  · rw [hfollows.1, hfollows.2]
    exact hprovisioning

theorem Faithful.write (h : Faithful tables cai) (hb : b ∈ tables.agents) (hid : b.agentId = cai.loaded.agentId) :
    (cai.write b).status = cai.current.status ∧ (cai.write b).provisioning = cai.current.provisioning := by
  obtain ⟨b', hb', hid', hstatus, hprovisioning⟩ := h
  obtain rfl := Keyed.eq_of_key hb' hb (hid'.trans hid.symm)
  constructor
  · show Delivery.column cai.loaded.status cai.current.status (cai.flushed.getD b').status = cai.current.status
    rw [hstatus, column_loaded]
  · show (if cai.flagged then cai.current.provisioning
      else Delivery.column cai.loaded.provisioning cai.current.provisioning (cai.flushed.getD b').provisioning) = _
    rw [hprovisioning, column_loaded, ite_self]

theorem Faithful.flush (h : Faithful tables cai) : Faithful tables (cai.flush tables.agents) := by
  obtain ⟨b, hb, hid, -⟩ := id h
  have hwrite := h.write hb hid
  refine ⟨b, hb, hid.trans cai.key_current.symm, ?_, ?_⟩
  · rw [Object.flushed_flush hb hid]
    exact hwrite.1
  · rw [Object.flushed_flush hb hid]
    exact hwrite.2

theorem mirrors_empty : Mirrors tables {} := ⟨fun _ hcai => (by cases hcai), List.nodup_nil⟩

theorem guarded_empty : Guarded tables {} :=
  ⟨mirrors_empty, fun _ hcai => (by cases hcai), fun _ hcai => (by cases hcai), rfl⟩

theorem Mirrors.of_agents {s' : Session} (h : Mirrors tables s) (hagents : s'.agents = s.agents) : Mirrors tables s' := by
  refine ⟨?_, ?_⟩
  · rw [hagents]
    exact h.faithful
  · rw [hagents]
    exact h.distinct

theorem Guarded.of_agents {s' : Session} (h : Guarded tables s) (hagents : s'.agents = s.agents) (hkeys : s'.keys = s.keys)
    (hcreated : s'.created = s.created) (hrevoked : s'.revoked = s.revoked) : Guarded tables s' := by
  refine ⟨h.mirrors.of_agents hagents, ?_, ?_, hrevoked.trans h.revoked⟩
  · rw [hagents, hkeys]
    exact h.agents
  · rw [hcreated, hkeys]
    exact h.created

theorem Mirrors.flush (h : Mirrors tables s) : Mirrors tables (s.flush tables) := by
  refine ⟨fun cai hcai => ?_, ?_⟩
  · obtain ⟨o, ho, rfl⟩ := List.mem_map.mp hcai
    split
    · exact (h.faithful o ho).flush
    · exact h.faithful o ho
  · have hsame : (s.flush tables).agents.map (fun cai => cai.loaded.agentId) = s.agents.map fun cai => cai.loaded.agentId := by
      simp only [Session.flush, List.map_map]
      refine List.map_congr_left fun o _ => ?_
      simp only [Function.comp_apply]
      split
      · exact o.key_current
      · rfl
    rw [hsame]
    exact h.distinct

theorem Guarded.flush (h : Guarded tables s) : Guarded tables (s.flush tables) := by
  refine ⟨h.mirrors.flush, fun cai hcai => ?_, h.created, h.revoked⟩
  obtain ⟨o, ho, rfl⟩ := List.mem_map.mp hcai
  split
  · exact h.agents o ho
  · exact h.agents o ho

theorem Guarded.load (h : Guarded tables s) (hkept : ∀ b ∈ tables.agents, b.Sealed tables.keys) {rows : List CloudAgentInstance}
    (hrows : ∀ b ∈ rows, b ∈ tables.agents) (hdistinct : (rows.map CloudAgentInstance.agentId).Nodup) :
    Guarded tables { s with agents := rows.map (.load _) } := by
  refine ⟨⟨fun cai hcai => ?_, ?_⟩, fun cai hcai => ?_, h.created, h.revoked⟩
  · obtain ⟨b, hb, rfl⟩ := List.mem_map.mp hcai
    exact faithful_load (hrows b hb)
  · rw [List.map_map]
    exact hdistinct
  · obtain ⟨b, hb, rfl⟩ := List.mem_map.mp hcai
    exact (hkept b (hrows b hb)).mono fun key hkey => List.mem_append_left _ hkey

variable {g : CloudAgent → CloudAgent}

theorem Guarded.setFirst {rest : List CloudAgent} (h : Guarded tables s) (hagents : s.agents = cai :: rest)
    (hfollows : cai.Follows (g cai)) (hsealed : (g cai).current.Sealed (tables.keys ++ s.keys)) : Guarded tables (s.setAgent g) := by
  have hset : s.setAgent g = { s with agents := g cai :: rest } := by
    simp only [Session.setAgent, hagents]
  rw [hset]
  refine ⟨⟨fun o ho => ?_, ?_⟩, fun o ho => ?_, h.created, h.revoked⟩
  · rcases List.mem_cons.mp ho with rfl | ho
    · exact (h.mirrors.faithful cai (hagents ▸ List.mem_cons_self)).follows hfollows
    · exact h.mirrors.faithful o (hagents ▸ List.mem_cons_of_mem _ ho)
  · have hdistinct := h.mirrors.distinct
    rw [hagents] at hdistinct
    rw [List.map_cons, hfollows.1]
    exact hdistinct
  · rcases List.mem_cons.mp ho with rfl | ho
    · exact hsealed
    · exact h.agents o (hagents ▸ List.mem_cons_of_mem _ ho)

theorem Guarded.setAgent (h : Guarded tables s)
    (hg : ∀ cai rest, s.agents = cai :: rest → cai.Follows (g cai) ∧ (g cai).current.Sealed (tables.keys ++ s.keys)) :
    Guarded tables (s.setAgent g) := by
  cases hagents : s.agents with
  | nil =>
    have hset : s.setAgent g = s := by
      simp only [Session.setAgent, hagents]
    rw [hset]
    exact h
  | cons cai rest =>
    have hcai := hg cai rest hagents
    exact h.setFirst hagents hcai.1 hcai.2

theorem Guarded.setAgents (h : Guarded tables s)
    (hg : ∀ cai ∈ s.agents, cai.Follows (g cai) ∧ (g cai).current.Sealed (tables.keys ++ s.keys)) : Guarded tables (s.setAgents g) := by
  refine ⟨⟨fun o ho => ?_, ?_⟩, fun o ho => ?_, h.created, h.revoked⟩
  · obtain ⟨cai, hcai, rfl⟩ := List.mem_map.mp ho
    exact (h.mirrors.faithful cai hcai).follows (hg cai hcai).1
  · have hsame : (s.setAgents g).agents.map (fun cai => cai.loaded.agentId) = s.agents.map fun cai => cai.loaded.agentId := by
      simp only [Session.setAgents, List.map_map]
      refine List.map_congr_left fun cai hcai => ?_
      rw [Function.comp_apply, (hg cai hcai).1.1]
    rw [hsame]
    exact h.mirrors.distinct
  · obtain ⟨cai, hcai, rfl⟩ := List.mem_map.mp ho
    exact (hg cai hcai).2

/-! ### Commits -/

theorem Mirrors.savedRow (h : Mirrors tables s) (hb : b ∈ tables.agents) :
    Keyed.savedRow s.agents b = b ∨ ∃ cai ∈ s.agents, cai.loaded.agentId = b.agentId ∧
      (Keyed.savedRow s.agents b).agentId = cai.current.agentId ∧ (Keyed.savedRow s.agents b).status = cai.current.status ∧
        (Keyed.savedRow s.agents b).provisioning = cai.current.provisioning := by
  rcases Keyed.savedRow_cases s.agents b with hsame | ⟨cai, hcai, hid, hwrite⟩
  · exact .inl hsame
  · refine .inr ⟨cai, hcai, hid, ?_⟩
    have hkey : (Keyed.savedRow s.agents b).agentId = b.agentId := Keyed.key_savedRow s.agents b
    rw [hwrite] at hkey ⊢
    exact ⟨hkey.trans (hid.symm.trans cai.key_current.symm), (h.faithful cai hcai).write hb hid.symm⟩

theorem Mirrors.saved (h : Mirrors tables s) (hpublish : s.publish now tables = some tables') : Mirrors tables' s.saved := by
  obtain ⟨-, hagents, -⟩ := publish_eq_some hpublish
  have hsaved : ∀ cai ∈ s.agents, ∃ b ∈ tables.agents.save s.agents, b.agentId = cai.current.agentId ∧ b.status = cai.current.status ∧
      b.provisioning = cai.current.provisioning := by
    intro cai hcai
    obtain ⟨b, hb, hid, -⟩ := h.faithful cai hcai
    have hwrite : Keyed.savedRow s.agents b = cai.write b := Keyed.savedRow_of_mem h.distinct hcai hid.symm
    refine ⟨_, Keyed.mem_save.mpr ⟨b, hb, rfl⟩, ?_⟩
    have hkey : (Keyed.savedRow s.agents b).agentId = b.agentId := Keyed.key_savedRow s.agents b
    rw [hwrite] at hkey ⊢
    exact ⟨hkey.trans (hid.trans cai.key_current.symm), (h.faithful cai hcai).write hb hid⟩
  have hloaded : (s.agents.map Object.saved).map (fun cai : CloudAgent => cai.loaded.agentId) = s.agents.map fun cai => cai.loaded.agentId := by
    rw [List.map_map]
    exact List.map_congr_left fun cai _ => cai.key_current
  rcases saveAgents_cases hagents with ⟨hnone, htables⟩ | ⟨r, hcreated, hadds⟩
  · refine ⟨fun cai hcai => ?_, ?_⟩
    · simp only [Session.saved, hnone, Option.toList_none, List.map_nil, List.nil_append] at hcai
      obtain ⟨o, ho, rfl⟩ := List.mem_map.mp hcai
      obtain ⟨b, hb, hid, hsame⟩ := hsaved o ho
      exact ⟨b, htables ▸ hb, hid, hsame⟩
    · simp only [Session.saved, hnone, Option.toList_none, List.map_nil, List.nil_append]
      rw [hloaded]
      exact h.distinct
  · refine ⟨fun cai hcai => ?_, ?_⟩
    · simp only [Session.saved, hcreated, Option.toList_some, List.map_cons, List.map_nil, List.singleton_append] at hcai
      rcases List.mem_cons.mp hcai with rfl | hcai
      · exact faithful_load (hadds.mem_iff.mpr (.inr rfl))
      · obtain ⟨o, ho, rfl⟩ := List.mem_map.mp hcai
        obtain ⟨b, hb, hid, hsame⟩ := hsaved o ho
        exact ⟨b, hadds.mem_iff.mpr (.inl hb), hid, hsame⟩
    · simp only [Session.saved, hcreated, Option.toList_some, List.map_cons, List.map_nil, List.singleton_append]
      refine List.nodup_cons.mpr ⟨fun hmem => ?_, ?_⟩
      · obtain ⟨o', ho', hid⟩ := List.mem_map.mp hmem
        obtain ⟨o, ho, rfl⟩ := List.mem_map.mp ho'
        obtain ⟨b, hb, hkey, -⟩ := hsaved o ho
        exact hadds.new b hb (hkey.trans hid)
      · rw [hloaded]
        exact h.distinct

theorem keys_publish (hrevoked : s.revoked = []) (hpublish : s.publish now tables = some tables') : tables'.keys = tables.keys ++ s.keys := by
  obtain ⟨-, -, hkeys, -⟩ := publish_eq_some hpublish
  rw [hkeys, Session.saveKeys, hrevoked]
  simp only [List.not_mem_nil, if_false, List.map_id']

theorem Guarded.commit (h : Guarded tables s) (hkept : ∀ b ∈ tables.agents, b.Sealed tables.keys)
    (hpublish : s.publish now tables = some tables') :
    (∀ b ∈ tables'.agents, b.Sealed tables'.keys) ∧ Guarded tables' s.saved := by
  have hkeys := keys_publish h.revoked hpublish
  obtain ⟨-, hagents, -⟩ := publish_eq_some hpublish
  have hrows : ∀ b ∈ tables.agents, (Keyed.savedRow s.agents b).Sealed tables'.keys := by
    intro b hb
    rw [hkeys]
    rcases h.mirrors.savedRow hb with hsame | ⟨cai, hcai, -, hid, hstatus, hprovisioning⟩
    · rw [hsame]
      exact (hkept b hb).mono fun key hkey => List.mem_append_left _ hkey
    · refine (h.agents cai hcai).congr hid hstatus ?_
      rw [CloudAgentInstance.credentials?, hprovisioning]
      rfl
  refine ⟨fun b' hb' => ?_, h.mirrors.saved hpublish, fun cai hcai => ?_, fun cai hcai => ?_, rfl⟩
  · rcases saveAgents_cases hagents with ⟨-, hsaved⟩ | ⟨r, hcreated, hadds⟩
    · rw [hsaved] at hb'
      obtain ⟨b, hb, rfl⟩ := Keyed.mem_save.mp hb'
      exact hrows b hb
    · rcases hadds.mem_iff.mp hb' with hb' | rfl
      · obtain ⟨b, hb, rfl⟩ := Keyed.mem_save.mp hb'
        exact hrows b hb
      · rw [hkeys]
        exact h.created _ hcreated
  · have hmono : ∀ key ∈ tables.keys ++ s.keys, key ∈ tables'.keys ++ s.saved.keys := by
      intro key hkey
      exact List.mem_append_left _ (hkeys ▸ hkey)
    rcases List.mem_append.mp hcai with hcai | hcai
    · obtain ⟨r, hr, rfl⟩ := List.mem_map.mp hcai
      exact (h.created r (Option.mem_toList.mp hr)).mono hmono
    · obtain ⟨o, ho, rfl⟩ := List.mem_map.mp hcai
      exact (h.agents o ho).mono hmono
  · cases hcai

end Sessions

/-! ### What the calls hold -/

/-- What comes next waits for no answer of the provider or the daemon. -/
def Point.Proceeds : Point → Prop
  | .create .provider | .relaunch _ | .delete .cleanup | .resume _ .probe | .resume _ .install | .resume _ .provider
  | .pause .provider | .idle _ .provider | .hello (.probe _) | .hello (.install _) => False
  | _ => True

theorem Point.proceed_of_next {p : Point} {w : World} {reply : Reply} (hnext : p.next w s reply = some outcome) (hp : p.Proceeds) :
    reply = .proceed := by
  cases reply with
  | proceed => rfl
  | handle | raised | listed | installed | notInstalled =>
    cases p with
    | relaunch => exact hp.elim
    | send => cases hnext
    | create p | delete p | resume caller p | restart p | pause p | idle now p | hello p | run p =>
      cases p <;> first | exact hp.elim | cases hnext

/-- A session of a deletion, which has loaded the one agent and creates none. -/
structure Deletes (tables : Tables) (s : Session) (cai : CloudAgent) : Prop where
  mirrors : Mirrors tables s
  agents : s.agents = [cai]
  created : s.created = none

/-- No agent and no key is added. -/
def Session.Clear (s : Session) : Prop := s.keys = [] ∧ s.created = none

/-- The points at which a call has committed what it added. -/
def Point.IsClear : Point → Prop
  | .create .start | .create .prepare | .create .provider | .resume _ .provision | .resume _ .install | .hello (.provision _)
  | .hello (.install _) | .run (.room _) | .run (.insert _) | .run (.release _) | .send _ => False
  | _ => True

def DeletePoint.Keeps (tables : Tables) (s : Session) : DeletePoint → Prop
  | .load _ => s = {}
  | .mark | .keys => ∃ cai, Deletes tables s cai
  | .count | .revoke | .cleanup => ∃ cai, Deletes tables s cai ∧ cai.current.provisioning = none ∧
      ∀ key ∈ s.revoked, key.agentId = cai.loaded.agentId

def Point.Keeps (tables : Tables) (s : Session) : Point → Prop
  | .delete p => p.Keeps tables s
  | .relaunch r => Guarded tables s ∧ ∀ state ∈ r.agents, state.Sealed tables.keys
  | .pause .flush => Guarded tables s ∧ s.Clear ∧ ∃ cai, s.agents = [cai]
  | .pause .peers | .pause .provider => Mirrors tables s ∧ s.created = none ∧ s.revoked = [] ∧
      ∀ cai ∈ s.agents, cai.current.status = .paused
  | .create p => Guarded tables s ∧ ((Point.create p).IsClear → s.Clear) ∧ ∀ cai ∈ s.created, cai.status = .provisioning
  | .idle _ _ => Guarded tables s ∧ ∀ cai ∈ s.agents, cai.current.credentials? = none
  | .resume _ .provider => Guarded tables s ∧ s.Clear ∧ ∀ cai rest, s.agents = cai :: rest → cai.current.status = .provisioning
  | point => Guarded tables s ∧ (point.IsClear → s.Clear)

def Outcome.Keeps (tables : Tables) : Outcome → Prop
  | .goto point s | .acquire point s | .select _ point s => point.Keeps tables s
  | .flush point s => point.Keeps tables (s.flush tables)
  | .commit point s => ∀ now tables', s.publish now tables = some tables' →
      (∀ b ∈ tables'.agents, b.Sealed tables'.keys) ∧ ∀ p ∈ point, p.Keeps tables' s.saved
  | .rollback point => point.Keeps tables {}
  | .finish => True

def Point.Resumes (p : Point) : Prop := ∀ tables s, Guarded tables s → s.Clear → p.Keeps tables s

section Outcomes

variable {w : World} {reply : Reply} {caller : Caller}

theorem resumes_after (caller : Caller) : ∀ p ∈ caller.after, p.Resumes := by
  intro p hp tables s h hclear
  cases caller with
  | request => cases hp
  | run r | send agentId =>
    cases hp
    exact ⟨h, fun _ => hclear⟩

theorem resumes_none : ∀ p ∈ (none : Option Point), p.Resumes := fun _ hp => by cases hp

theorem Guarded.keeps_commit (h : Guarded tables s) (hkept : ∀ b ∈ tables.agents, b.Sealed tables.keys) {point : Option Point}
    (hpoint : ∀ p ∈ point, p.Resumes) : (Outcome.commit point s).Keeps tables := by
  intro now tables' hpublish
  obtain ⟨hkept', hsaved⟩ := h.commit hkept hpublish
  exact ⟨hkept', fun p hp => hpoint p hp tables' s.saved hsaved ⟨rfl, rfl⟩⟩

theorem Caller.keeps_returned (caller : Caller) (h : Guarded tables s) : (caller.returned s).Keeps tables := by
  cases caller with
  | request => trivial
  | run r => exact ⟨h, fun hclear => hclear.elim⟩
  | send agentId => exact ⟨h, fun hclear => hclear.elim⟩

theorem Caller.keeps_raised (caller : Caller) (h : Guarded tables s) : (caller.raised s).Keeps tables := by
  cases caller with
  | request => trivial
  | run r => exact ⟨guarded_empty, fun _ => ⟨rfl, rfl⟩⟩
  | send agentId => exact ⟨h, fun hclear => hclear.elim⟩

theorem ite_keeps {p : Prop} [Decidable p] {x y : Outcome} (hnext : some (if p then x else y) = some outcome)
    (hx : p → x.Keeps tables) (hy : ¬ p → y.Keeps tables) : outcome.Keeps tables := by
  by_cases hp : p
  · rw [if_pos hp] at hnext
    exact Option.some.inj hnext ▸ hx hp
  · rw [if_neg hp] at hnext
    exact Option.some.inj hnext ▸ hy hp

theorem rows_keeps {f : CloudAgent → CloudDaemon → Option Outcome} (hrows : s.rows f = some outcome)
    (hf : ∀ cai cdi rest, s.agents = cai :: rest → f cai cdi = some outcome → outcome.Keeps tables) : outcome.Keeps tables := by
  rcases Session.rows_eq_some hrows with rfl | ⟨cai, rest, cdi, hagents, -, hrows⟩
  · trivial
  · exact hf cai cdi rest hagents hrows

theorem cdi_keeps {f : CloudDaemon → Option Outcome} (hcdi : s.cdi f = some outcome)
    (hf : ∀ cdi, f cdi = some outcome → outcome.Keeps tables) : outcome.Keeps tables := by
  rcases Session.cdi_eq_some hcdi with rfl | ⟨cdi, -, hcdi⟩
  · trivial
  · exact hf cdi hcdi

theorem Guarded.setDaemon (h : Guarded tables s) (f : CloudDaemon → CloudDaemon) : Guarded tables (s.setDaemon f) :=
  h.of_agents rfl rfl rfl rfl

theorem distinct_agentsOf (id : DaemonId) (p : AgentStatus → Prop) [DecidablePred p] :
    ((w.agentsOf id p).map CloudAgentInstance.agentId).Nodup :=
  w.tables.agents.distinct.sublist (List.filter_sublist.map _)

variable (hkept : ∀ b ∈ w.tables.agents, b.Sealed w.tables.keys)
include hkept

theorem Guarded.loadAgentsOf (h : Guarded w.tables s) (id : DaemonId) (p : AgentStatus → Prop) [DecidablePred p] :
    Guarded w.tables { s with agents := (w.agentsOf id p).map (.load _) } :=
  h.load hkept (fun _ hb => (mem_agentsOf hb).1) (distinct_agentsOf id p)

theorem Guarded.loadRows (h : Guarded w.tables s) {agentId : AgentId} {cai : CloudAgentInstance} {cdi : CloudDaemonInstance}
    (hload : w.loadOwned agentId = some (cai, cdi)) : Guarded w.tables (s.loadRows cai cdi) := by
  have hmem : ∀ b ∈ [cai], b ∈ w.tables.agents := by
    intro b hb
    rw [List.mem_singleton.mp hb]
    exact (loadOwned_eq_some hload).1.1
  exact (h.load hkept hmem (List.nodup_singleton _)).of_agents rfl rfl rfl rfl

omit hkept

theorem Guarded.provisioning (h : Guarded tables s) (hkeys : s.keys = []) {cai : CloudAgent} {rest : List CloudAgent}
    (hagents : s.agents = cai :: rest) : Guarded tables (s.provisioning w cai) := by
  have hmore : ∀ o ∈ s.agents, o.current.Sealed tables.keys := by
    intro o ho
    have hsealed := h.agents o ho
    rw [hkeys, List.append_nil] at hsealed
    exact hsealed
  have hset : Guarded tables { s with keys := (ensureProvisioningMetadata cai (w.fresh 0) (w.fresh 1)).2 } := by
    refine ⟨h.mirrors.of_agents rfl, fun o ho => ?_, fun o ho => ?_, h.revoked⟩
    · exact (hmore o ho).mono fun key hkey => List.mem_append_left _ hkey
    · have hsealed := h.created o ho
      rw [hkeys, List.append_nil] at hsealed
      exact hsealed.mono fun key hkey => List.mem_append_left _ hkey
  have hfirst := hset.setFirst (g := fun _ => setStatus (ensureProvisioningMetadata cai (w.fresh 0) (w.fresh 1)).1 .provisioning none none)
    hagents ((follows_ensureProvisioningMetadata cai _ _).trans (Object.follows_set _ _ _))
    (sealed_ensure (hmore cai (hagents ▸ List.mem_cons_self)) _ _ ?_ rfl rfl)
  · refine hfirst.of_agents ?_ ?_ ?_ ?_
    · simp only [Session.provisioning, Session.setAgent, hagents]
    · simp only [Session.provisioning, Session.setAgent, hagents]
    · simp only [Session.provisioning, Session.setAgent, hagents]
    · simp only [Session.provisioning, Session.setAgent, hagents]
  · show (ensureProvisioningMetadata cai _ _).1.current.agentId = cai.current.agentId
    have hkey : (ensureProvisioningMetadata cai (w.fresh 0) (w.fresh 1)).1.current.agentId =
        (ensureProvisioningMetadata cai (w.fresh 0) (w.fresh 1)).1.loaded.agentId := Object.key_current _
    rw [hkey, (follows_ensureProvisioningMetadata cai _ _).1]
    exact cai.key_current.symm

end Outcomes

theorem guarded_paused (hheld : Mirrors tables s ∧ s.created = none ∧ s.revoked = [] ∧ ∀ cai ∈ s.agents, cai.current.status = .paused)
    (hscrubbed : ∀ cai ∈ s.agents, cai.current.credentials? = none) : Guarded tables s := by
  obtain ⟨hmirrors, hcreated, hrevoked, hpaused⟩ := hheld
  refine ⟨hmirrors, fun cai hcai => sealed_of_none ?_ (hscrubbed cai hcai), fun cai hcai => ?_, hrevoked⟩
  · rw [hpaused cai hcai]
    exact AgentStatus.noConfusion
  · rw [hcreated] at hcai
    cases hcai

theorem follows_prepareRestart (w : World) (launchToken : Token) (k : ℕ) (cai : CloudAgent) :
    cai.Follows (prepareRestart w launchToken k cai).1 := by
  have hensured := follows_ensureProvisioningMetadata (tagProvisioning cai launchToken) (w.fresh (2 * k + 1)) (w.fresh (2 * k + 2))
  exact (cai.follows_flag _ _).trans (hensured.trans ((Object.follows_flag _ _ _).trans (Object.follows_set _ _ _)))

/-! ### Each call -/

section Calls

variable {w : World} {reply : Reply} (hkept : ∀ b ∈ w.tables.agents, b.Sealed w.tables.keys)
include hkept

theorem provisionOne_keeps {launchToken : Option Token} {install : Point} {after : Option Point} (h : Guarded w.tables s)
    (hinstall : install.Keeps w.tables s) (hafter : ∀ p ∈ after, p.Resumes)
    (hnext : provisionOne s launchToken install after = some outcome) : outcome.Keeps w.tables := by
  refine rows_keeps hnext fun cai cdi rest hagents hnext => ?_
  simp only [Option.some.injEq] at hnext
  have hcai : cai.current.Sealed (w.tables.keys ++ s.keys) := h.agents cai (hagents ▸ List.mem_cons_self)
  split at hnext
  · subst hnext
    exact (h.setFirst hagents (cai.follows_set _ _) (hcai.congr rfl rfl rfl)).keeps_commit hkept hafter
  · split at hnext
    · rename_i hnone
      subst hnext
      have hfailed : Guarded w.tables { s with failedChats := some cai.current.agentId } := h.of_agents rfl rfl rfl rfl
      refine (hfailed.setFirst hagents (cai.follows_set _ _) ?_).keeps_commit hkept hafter
      exact sealed_of_none AgentStatus.noConfusion hnone
    · subst hnext
      exact hinstall

variable {cai : CloudAgent}

theorem provisioned_keeps {rest : List CloudAgent} {s' : Session} {after : Option Point} (h : Guarded w.tables s)
    (hagents : s.agents = cai :: rest) (hafter : ∀ p ∈ after, p.Resumes) (hanswer : provisioned w s cai reply = some s') :
    (Outcome.commit after s').Keeps w.tables := by
  cases reply with
  | installed =>
    cases hanswer
    refine Guarded.keeps_commit (Guarded.setDaemon ?_ _) hkept hafter
    refine h.setFirst hagents (((cai.follows_set _ _).trans (Object.follows_set _ _ _)).trans (follows_scrubProvisioningMetadata _)) ?_
    exact sealed_scrub nofun
  | notInstalled code message =>
    cases hanswer
    have hfailed : Guarded w.tables { s with failedChats := some cai.current.agentId } := h.of_agents rfl rfl rfl rfl
    have hcai : cai.current.Sealed (w.tables.keys ++ s.keys) := h.agents cai (hagents ▸ List.mem_cons_self)
    exact (hfailed.setFirst hagents (cai.follows_set _ _) (hcai.congr rfl rfl rfl)).keeps_commit hkept hafter
  | proceed | handle | raised | listed => cases hanswer

theorem resumeCloudAgent_keeps {caller : Caller} {p : ResumePoint} (h : Guarded w.tables t.session)
    (hclear : (Point.resume caller p).IsClear → t.session.Clear)
    (hprovider : p = .provider → ∀ cai rest, t.session.agents = cai :: rest → cai.current.status = .provisioning)
    (hpoint : t.point = .resume caller p) (hsealing : t.Sealing reply outcome)
    (hnext : resumeCloudAgent w t.session caller p reply = some outcome) : outcome.Keeps w.tables := by
  have hproceed := Point.proceed_of_next (p := .resume caller p) hnext
  cases p with
  | lock agentId =>
    obtain rfl := hproceed trivial
    cases hnext
    exact ⟨h, hclear⟩
  | load agentId =>
    obtain rfl := hproceed trivial
    simp only [resumeCloudAgent] at hnext
    split at hnext
    · cases hnext
      exact caller.keeps_raised h
    · rename_i cai cdi hload
      have hloaded : Guarded w.tables (if t.session.agents.isEmpty then t.session.loadRows cai cdi else t.session) ∧
          (if t.session.agents.isEmpty then t.session.loadRows cai cdi else t.session).Clear := by
        split
        · exact ⟨h.loadRows hkept hload, hclear trivial⟩
        · exact ⟨h, hclear trivial⟩
      refine rows_keeps hnext fun cai cdi rest _ hnext => ?_
      simp only [Option.some.injEq] at hnext
      split at hnext
      · subst hnext
        exact caller.keeps_raised hloaded.1
      · split at hnext
        · split at hnext
          · subst hnext
            exact caller.keeps_returned hloaded.1
          · subst hnext
            exact ⟨hloaded.1, fun _ => hloaded.2⟩
        · subst hnext
          exact ⟨hloaded.1, fun _ => hloaded.2⟩
  | probe =>
    cases reply with
    | listed answer =>
      cases answer with
      | error code =>
        refine rows_keeps hnext fun cai cdi rest hagents hnext => ?_
        refine ite_keeps hnext (fun _ => caller.keeps_returned h) fun _ => ?_
        have hnone : cai.current.credentials? = none := by
          unfold Task.Sealing at hsealing
          rw [hpoint] at hsealing
          exact hsealing cai (hagents ▸ List.mem_cons_self)
        refine (h.setFirst hagents (cai.follows_set _ _) ?_).keeps_commit hkept (resumes_after caller)
        exact sealed_of_none AgentStatus.noConfusion hnone
      | ok live =>
        refine rows_keeps hnext fun cai cdi rest hagents hnext => ?_
        simp only [Option.some.injEq] at hnext
        split at hnext
        · subst hnext
          refine Guarded.keeps_commit (Guarded.setDaemon ?_ _) hkept (resumes_after caller)
          exact h.setFirst hagents ((cai.follows_set _ _).trans (follows_scrubProvisioningMetadata _)) (sealed_scrub nofun)
        · subst hnext
          exact ⟨(h.provisioning (hclear trivial).1 hagents).flush, fun hclear => hclear.elim⟩
    | proceed | handle | raised | installed | notInstalled => cases hnext
  | provision =>
    obtain rfl := hproceed trivial
    have hinstall : (Point.resume caller .install).Keeps w.tables t.session := ⟨h, fun hclear => hclear.elim⟩
    exact provisionOne_keeps hkept h hinstall (resumes_after caller) hnext
  | install =>
    refine rows_keeps hnext fun cai cdi rest hagents hnext => ?_
    obtain ⟨s', hanswer, rfl⟩ := Option.map_eq_some_iff.mp hnext
    exact provisioned_keeps hkept h hagents (resumes_after caller) hanswer
  | other =>
    obtain rfl := hproceed trivial
    refine cdi_keeps hnext fun cdi hnext => ?_
    refine ite_keeps hnext (fun _ => caller.keeps_raised h) fun _ => ?_
    exact ⟨h, hclear⟩
  | start =>
    obtain rfl := hproceed trivial
    refine rows_keeps hnext fun cai cdi rest hagents hnext => ?_
    cases hnext
    intro now tables' hpublish
    obtain ⟨hkept', hsaved⟩ := ((h.provisioning (hclear trivial).1 hagents).setDaemon _).commit hkept hpublish
    refine ⟨hkept', fun p hp => ?_⟩
    split at hp
    · exact resumes_after caller p hp tables' _ hsaved ⟨rfl, rfl⟩
    · cases hp
      refine ⟨hsaved, ⟨rfl, rfl⟩, fun o others ho => ?_⟩
      simp only [Session.saved, Session.setDaemon, Session.provisioning, Session.setAgent, hagents, (hclear trivial).2,
        Option.toList_none, List.map_nil, List.nil_append, List.map_cons, List.cons.injEq] at ho
      rw [← ho.1]
      rfl
  | provider =>
    cases reply with
    | raised message =>
      cases hnext
      exact caller.keeps_raised h
    | handle handle =>
      cases hnext
      have hstatus : handle.status ≠ .ready ∧ handle.status ≠ .failed := by
        unfold Task.Sealing at hsealing
        rw [hpoint] at hsealing
        exact hsealing
      refine Guarded.keeps_commit ?_ hkept (resumes_after caller)
      have hmine := h.setDaemon fun cdi => (applyHandleToRows cdi handle w.now).set fun r => { r with lastStartedAt := some w.now }
      refine hmine.setAgent fun cai rest hagents => ?_
      have hcai : cai.current.Sealed (w.tables.keys ++ t.session.keys) := h.agents cai (hagents ▸ List.mem_cons_self)
      split
      · exact absurd ‹_› hstatus.2
      · exact absurd ‹_› hstatus.1
      · exact ⟨cai.follows_set _ _, hcai.congr rfl (hprovider rfl cai rest hagents).symm rfl⟩
    | proceed | listed | installed | notInstalled => cases hnext

theorem pauseCloudAgent_keeps {p : PausePoint} (hheld : (Point.pause p).Keeps w.tables t.session)
    (hpoint : t.point = .pause p) (hsealing : t.Sealing reply outcome)
    (hnext : pauseCloudAgent w t.session p reply = some outcome) : outcome.Keeps w.tables := by
  have hproceed := Point.proceed_of_next (p := .pause p) hnext
  have hscrubbed : ∀ s, outcome = .commit none s → ∀ cai ∈ s.agents, cai.current.credentials? = none := by
    intro s hs
    subst hs
    unfold Task.Sealing at hsealing
    rw [hpoint] at hsealing
    exact hsealing
  cases p with
  | load agentId =>
    obtain rfl := hproceed trivial
    simp only [pauseCloudAgent, Option.some.injEq] at hnext
    split at hnext
    · subst hnext
      trivial
    · rename_i cai cdi hload
      split at hnext
      · subst hnext
        trivial
      · subst hnext
        exact ⟨hheld.1.loadRows hkept hload, hheld.2 trivial, _, rfl⟩
  | flush =>
    obtain rfl := hproceed trivial
    cases hnext
    obtain ⟨h, hclear, cai, hagents⟩ := hheld
    have hset : t.session.setAgent (·.set fun r => { r with status := .paused }) =
        { t.session with agents := [cai.set fun r => { r with status := .paused }] } := by
      simp only [Session.setAgent, hagents]
    rw [hset]
    refine ⟨Mirrors.flush ⟨fun o ho => ?_, List.nodup_singleton _⟩, hclear.2, h.revoked, fun o ho => ?_⟩
    · rw [List.mem_singleton.mp ho]
      exact (h.mirrors.faithful cai (hagents ▸ List.mem_singleton_self cai)).follows (cai.follows_set _ _)
    · obtain ⟨o', ho', rfl⟩ := List.mem_map.mp ho
      rw [List.mem_singleton.mp ho']
      split
      · rfl
      · rfl
  | peers =>
    obtain rfl := hproceed trivial
    refine rows_keeps hnext fun cai cdi rest _ hnext => ?_
    simp only [Option.some.injEq] at hnext
    split at hnext
    · subst hnext
      exact hheld
    · subst hnext
      exact Guarded.keeps_commit (guarded_paused hheld (hscrubbed _ rfl)) hkept resumes_none
  | provider =>
    cases reply with
    | raised message =>
      cases hnext
      trivial
    | handle handle =>
      cases hnext
      exact Guarded.keeps_commit ((guarded_paused hheld fun cai hcai => hscrubbed _ rfl cai hcai).setDaemon _) hkept resumes_none
    | proceed | listed | installed | notInstalled => cases hnext

theorem pauseIdleCloudDaemon_keeps {p : IdlePoint} (h : Guarded w.tables t.session)
    (hscrubbed : ∀ cai ∈ t.session.agents, cai.current.credentials? = none)
    (hnext : pauseIdleCloudDaemon w t.session now p reply = some outcome) : outcome.Keeps w.tables := by
  have hproceed := Point.proceed_of_next (p := .idle now p) hnext
  cases p with
  | load id =>
    obtain rfl := hproceed trivial
    simp only [pauseIdleCloudDaemon, Option.some.injEq] at hnext
    split at hnext
    · subst hnext
      trivial
    · subst hnext
      exact ⟨h.of_agents rfl rfl rfl rfl, hscrubbed⟩
  | agents =>
    obtain rfl := hproceed trivial
    refine cdi_keeps hnext fun cdi hnext => ?_
    refine ite_keeps hnext (fun _ => trivial) fun hrunning => ?_
    refine ⟨h.loadAgentsOf hkept _ _, fun cai hcai => ?_⟩
    obtain ⟨b, hb, rfl⟩ := List.mem_map.mp hcai
    exact (hkept b (mem_agentsOf hb).1).scrubbed fun hprovisioning => hrunning (.inr ⟨b, hb, hprovisioning⟩)
  | reservations | messages =>
    obtain rfl := hproceed trivial
    refine cdi_keeps hnext fun cdi hnext => ?_
    refine ite_keeps hnext (fun _ => trivial) fun _ => ?_
    exact ⟨h, hscrubbed⟩
  | provider =>
    cases reply with
    | raised message =>
      cases hnext
      trivial
    | handle handle =>
      refine ite_keeps hnext (fun _ => trivial) fun _ => ?_
      refine Guarded.keeps_commit ((h.setDaemon _).setAgents fun cai hcai => ⟨cai.follows_set _ _, ?_⟩) hkept resumes_none
      exact sealed_of_none AgentStatus.noConfusion (hscrubbed cai hcai)
    | proceed | listed | installed | notInstalled => cases hnext

omit hkept in
theorem Hello.keeps_done {hello : Hello} (h : Guarded tables s) (hclear : s.Clear) : (hello.done s).Keeps tables := by
  unfold Hello.done
  split
  · exact ⟨h, fun _ => hclear⟩
  · trivial

theorem provisionPendingForCloudDaemon_keeps {p : HelloPoint} (h : Guarded w.tables t.session)
    (hclear : (Point.hello p).IsClear → t.session.Clear)
    (hnext : provisionPendingForCloudDaemon w t.session p reply = some outcome) : outcome.Keeps w.tables := by
  have hproceed := Point.proceed_of_next (p := .hello p) hnext
  have hrefresh : ∀ hello, ∀ p ∈ some (Point.hello (.refresh hello)), p.Resumes := by
    intro hello p hp tables s h hclear
    cases hp
    exact ⟨h, fun _ => hclear⟩
  cases p with
  | load id launchToken =>
    obtain rfl := hproceed trivial
    simp only [provisionPendingForCloudDaemon, Option.some.injEq] at hnext
    split at hnext
    · subst hnext
      trivial
    · split at hnext
      · subst hnext
        trivial
      · subst hnext
        exact ⟨h.of_agents rfl rfl rfl rfl, hclear⟩
  | probe hello =>
    cases reply with
    | listed answer =>
      cases answer with
      | error code =>
        refine ite_keeps hnext (fun _ => trivial) fun _ => ?_
        exact ⟨h, hclear⟩
      | ok live =>
        cases hnext
        exact ⟨h, hclear⟩
    | proceed | handle | raised | installed | notInstalled => cases hnext
  | rows hello includeReady =>
    obtain rfl := hproceed trivial
    refine cdi_keeps hnext fun cdi hnext => ?_
    refine ite_keeps hnext (fun _ => Hello.keeps_done h (hclear trivial)) fun _ => ?_
    exact ⟨h.loadAgentsOf hkept _ _, fun _ => hclear trivial⟩
  | row hello =>
    obtain rfl := hproceed trivial
    refine rows_keeps hnext fun cai cdi rest hagents hnext => ?_
    simp only [Option.some.injEq] at hnext
    split at hnext
    · subst hnext
      refine Guarded.keeps_commit (Guarded.setDaemon ?_ _) hkept (hrefresh hello)
      exact h.setFirst hagents ((cai.follows_set _ _).trans (follows_scrubProvisioningMetadata _)) (sealed_scrub AgentStatus.noConfusion)
    · split at hnext
      · subst hnext
        have hmine := h.provisioning (w := w) (hclear trivial).1 hagents
        refine ⟨(hmine.setAgent fun cai rest hagents => ?_).flush, fun hclear => hclear.elim⟩
        have hcai := hmine.agents cai (hagents ▸ List.mem_cons_self)
        split
        · split
          · exact ⟨cai.follows_flag _ _, sealed_tag hcai _⟩
          · exact ⟨.refl cai, hcai⟩
        · exact ⟨.refl cai, hcai⟩
      · subst hnext
        exact ⟨h, fun hclear => hclear.elim⟩
  | provision hello =>
    obtain rfl := hproceed trivial
    have hinstall : (Point.hello (.install hello)).Keeps w.tables t.session := ⟨h, fun hclear => hclear.elim⟩
    exact provisionOne_keeps hkept h hinstall (hrefresh hello) hnext
  | install hello =>
    refine rows_keeps hnext fun cai cdi rest hagents hnext => ?_
    obtain ⟨s', hanswer, rfl⟩ := Option.map_eq_some_iff.mp hnext
    exact provisioned_keeps hkept h hagents (hrefresh hello) hanswer
  | refresh hello =>
    obtain rfl := hproceed trivial
    refine cdi_keeps hnext fun cdi hnext => ?_
    simp only [Option.some.injEq] at hnext
    split at hnext
    · subst hnext
      trivial
    · rename_i r hr
      have hrest : Guarded w.tables { t.session with agents := t.session.agents.tail, daemon := some (.load _ r) } := by
        refine ⟨⟨fun cai hcai => ?_, ?_⟩, fun cai hcai => ?_, h.created, h.revoked⟩
        · exact h.mirrors.faithful cai (List.mem_of_mem_tail hcai)
        · rw [List.map_tail]
          exact h.mirrors.distinct.tail
        · exact h.agents cai (List.mem_of_mem_tail hcai)
      split at hnext
      · subst hnext
        exact Hello.keeps_done hrest (hclear trivial)
      · subst hnext
        exact ⟨hrest, fun _ => hclear trivial⟩
  | tagged hello =>
    obtain rfl := hproceed trivial
    refine cdi_keeps hnext fun cdi hnext => ?_
    simp only [Option.some.injEq] at hnext
    split at hnext
    · subst hnext
      trivial
    · split at hnext
      · subst hnext
        trivial
      · subst hnext
        exact ⟨h, hclear⟩
  | promote hello =>
    obtain rfl := hproceed trivial
    simp only [provisionPendingForCloudDaemon, Option.some.injEq] at hnext
    split at hnext
    · subst hnext
      trivial
    · subst hnext
      exact Guarded.keeps_commit (h.setDaemon _) hkept resumes_none

theorem createRun_keeps {p : RunPoint} (h : Guarded w.tables t.session) (hclear : (Point.run p).IsClear → t.session.Clear)
    (hnext : createRun w t.session p reply = some outcome) : outcome.Keeps w.tables := by
  have hproceed := Point.proceed_of_next (p := .run p) hnext
  cases p with
  | load agentId =>
    obtain rfl := hproceed trivial
    simp only [createRun, Option.some.injEq] at hnext
    split at hnext
    · subst hnext
      trivial
    · rename_i cai cdi hload
      split at hnext
      · subst hnext
        trivial
      · subst hnext
        exact ⟨h.loadRows hkept hload, hclear⟩
  | reserve agentId =>
    obtain rfl := hproceed trivial
    refine rows_keeps hnext fun cai cdi rest _ hnext => ?_
    have hreserved : Guarded w.tables { t.session with reservation := some { runId := w.fresh 0, agentId } } :=
      h.of_agents rfl rfl rfl rfl
    refine ite_keeps hnext (fun _ => ⟨hreserved, fun _ => hclear trivial⟩) fun _ => ?_
    exact ⟨hreserved, fun hclear => hclear.elim⟩
  | room r =>
    obtain rfl := hproceed trivial
    cases hnext
    exact ⟨h, fun hclear => hclear.elim⟩
  | insert r =>
    obtain rfl := hproceed trivial
    cases hnext
    have hsent : ∀ m, Guarded w.tables { t.session with message := m } := fun _ => h.of_agents rfl rfl rfl rfl
    refine Guarded.keeps_commit ((hsent _).setAgent fun cai rest hagents => ⟨cai.follows_set _ _, ?_⟩) hkept resumes_none
    exact (h.agents cai ((show t.session.agents = cai :: rest from hagents) ▸ List.mem_cons_self)).congr rfl rfl rfl
  | release runId =>
    obtain rfl := hproceed trivial
    cases hnext
    refine Guarded.keeps_commit ?_ hkept resumes_none
    exact h.of_agents rfl rfl rfl rfl

theorem sendOwnerChat_keeps {agentId : AgentId} (h : Guarded w.tables t.session)
    (hnext : sendOwnerChat w t.session agentId reply = some outcome) : outcome.Keeps w.tables := by
  have hproceed := Point.proceed_of_next (p := .send agentId) hnext
  obtain rfl := hproceed trivial
  cases hnext
  refine Guarded.keeps_commit ?_ hkept resumes_none
  exact h.of_agents rfl rfl rfl rfl

omit hkept in
theorem Guarded.undoRelaunch (h : Guarded tables s) {r : Relaunch} (hsnapshot : ∀ state ∈ r.agents, state.Sealed tables.keys)
    (code message : Option String) : Guarded tables (undoRelaunch s r code message) := by
  refine Guarded.setAgents (h.setDaemon _) fun cai hcai => ?_
  split
  · rename_i state hstate
    have hid : state.agentId = cai.current.agentId := by simpa using List.find?_some hstate
    refine ⟨cai.follows_flag _ _, ((hsnapshot state (List.mem_of_find?_eq_some hstate)).mono fun key hkey => ?_).congr hid.symm rfl rfl⟩
    exact List.mem_append_left _ hkey
  · split
    · exact ⟨(cai.follows_set _ _).trans (follows_scrubProvisioningMetadata _), sealed_scrub AgentStatus.noConfusion⟩
    · exact ⟨.refl cai, h.agents cai hcai⟩

theorem relaunchCloudDaemon_keeps {r : Relaunch} (h : Guarded w.tables t.session)
    (hsnapshot : ∀ state ∈ r.agents, state.Sealed w.tables.keys)
    (hnext : relaunchCloudDaemon w t.session r reply = some outcome) : outcome.Keeps w.tables := by
  cases reply with
  | raised message =>
    cases hnext
    exact Guarded.keeps_commit (h.undoRelaunch hsnapshot _ _) hkept resumes_none
  | handle handle =>
    cases hnext
    refine Guarded.keeps_commit ?_ hkept resumes_none
    split
    · exact Guarded.undoRelaunch (h.setDaemon _) hsnapshot _ _
    · split
      · exact (h.setDaemon _).setDaemon _
      · exact h.setDaemon _
  | proceed | listed | installed | notInstalled => cases hnext

omit hkept in
theorem guarded_prepareRestart (h : Guarded w.tables t.session) (hclear : t.session.Clear) (launchToken : Token) (cdi : CloudDaemon) :
    Guarded w.tables
      { t.session with
        agents := (t.session.agents.mapIdx (prepareRestart w launchToken)).map Prod.fst
        keys := (t.session.agents.mapIdx (prepareRestart w launchToken)).flatMap Prod.snd
        daemon := some cdi } := by
  have hmem : ∀ o ∈ (t.session.agents.mapIdx (prepareRestart w launchToken)).map Prod.fst,
      ∃ k, ∃ hk : k < t.session.agents.length, o = (prepareRestart w launchToken k t.session.agents[k]).1 := by
    intro o ho
    obtain ⟨prepared, hprepared, rfl⟩ := List.mem_map.mp ho
    obtain ⟨k, hk, rfl⟩ := List.mem_mapIdx.mp hprepared
    exact ⟨k, hk, rfl⟩
  refine ⟨⟨fun o ho => ?_, ?_⟩, fun o ho => ?_, fun o ho => ?_, h.revoked⟩
  · obtain ⟨k, hk, rfl⟩ := hmem o ho
    exact (h.mirrors.faithful _ (List.getElem_mem hk)).follows (follows_prepareRestart w launchToken k _)
  · have hsame : ((t.session.agents.mapIdx (prepareRestart w launchToken)).map Prod.fst).map (fun cai : CloudAgent => cai.loaded.agentId) =
        t.session.agents.map fun cai => cai.loaded.agentId := by
      apply List.ext_getElem
      · simp
      · intro k hk hk'
        simp only [List.getElem_map, List.getElem_mapIdx]
        rw [(follows_prepareRestart w launchToken k _).1]
    exact hsame ▸ h.mirrors.distinct
  · obtain ⟨k, hk, rfl⟩ := hmem o ho
    have hsealed := h.agents _ (List.getElem_mem hk)
    rw [hclear.1, List.append_nil] at hsealed
    have hmine : (prepareRestart w launchToken k t.session.agents[k]).1.current.Sealed
        (w.tables.keys ++ (prepareRestart w launchToken k t.session.agents[k]).2) := by
      refine sealed_ensure (sealed_tag hsealed launchToken) _ _ ?_ rfl (credentials_tag _ launchToken)
      have hkey : (prepareRestart w launchToken k t.session.agents[k]).1.current.agentId =
          (prepareRestart w launchToken k t.session.agents[k]).1.loaded.agentId := Object.key_current _
      rw [hkey, (follows_prepareRestart w launchToken k _).1]
      exact (tagProvisioning t.session.agents[k] launchToken).key_current.symm
    refine hmine.mono fun key hkey => ?_
    rcases List.mem_append.mp hkey with hkey | hkey
    · exact List.mem_append_left _ hkey
    · refine List.mem_append_right _ (List.mem_flatMap.mpr ⟨prepareRestart w launchToken k t.session.agents[k], ?_, hkey⟩)
      exact List.mem_mapIdx.mpr ⟨k, hk, rfl⟩
  · rw [show t.session.created = none from hclear.2] at ho
    cases ho

theorem restartCloudDaemon_keeps {p : RestartPoint} (h : Guarded w.tables t.session) (hclear : t.session.Clear)
    (hnext : restartCloudDaemon w t.session p reply = some outcome) : outcome.Keeps w.tables := by
  have hproceed := Point.proceed_of_next (p := .restart p) hnext
  cases p with
  | lock id =>
    obtain rfl := hproceed trivial
    cases hnext
    exact ⟨h, fun _ => hclear⟩
  | load id =>
    obtain rfl := hproceed trivial
    simp only [restartCloudDaemon, Option.some.injEq] at hnext
    split at hnext
    · subst hnext
      trivial
    · split at hnext
      · subst hnext
        trivial
      · subst hnext
        exact ⟨h.of_agents rfl rfl rfl rfl, fun _ => hclear⟩
  | reservations | messages | other =>
    obtain rfl := hproceed trivial
    refine cdi_keeps hnext fun cdi hnext => ?_
    refine ite_keeps hnext (fun _ => trivial) fun _ => ?_
    exact ⟨h, fun _ => hclear⟩
  | agents =>
    obtain rfl := hproceed trivial
    refine cdi_keeps hnext fun cdi hnext => ?_
    refine ite_keeps hnext (fun _ => trivial) fun _ => ?_
    exact ⟨h.loadAgentsOf hkept _ _, fun _ => hclear⟩
  | prepare =>
    obtain rfl := hproceed trivial
    refine cdi_keeps hnext fun cdi hnext => ?_
    cases hnext
    have hprepared := guarded_prepareRestart h hclear (w.fresh 0) ((beginRelaunch cdi (w.fresh 0)).set fun r =>
      { r with status := .starting, errorCode := none, errorMessage := none })
    intro now tables' hpublish
    obtain ⟨hkept', hsaved⟩ := hprepared.commit hkept hpublish
    refine ⟨hkept', fun p hp => ?_⟩
    cases hp
    refine ⟨hsaved, fun state hstate => ?_⟩
    obtain ⟨cai, hcai, rfl⟩ := List.mem_map.mp hstate
    have hsealed := h.agents cai hcai
    rw [hclear.1, List.append_nil] at hsealed
    refine hsealed.mono fun key hkey => ?_
    rw [keys_publish hprepared.revoked hpublish]
    exact List.mem_append_left _ hkey

omit hkept in
theorem Deletes.setAgent {g : CloudAgent → CloudAgent} (h : Deletes tables s cai) (hg : cai.Follows (g cai)) :
    Deletes tables (s.setAgent g) (g cai) := by
  have hset : s.setAgent g = { s with agents := [g cai] } := by
    simp only [Session.setAgent, h.agents]
  rw [hset]
  refine ⟨⟨fun o ho => ?_, List.nodup_singleton _⟩, rfl, h.created⟩
  rw [List.mem_singleton.mp ho]
  exact (h.mirrors.faithful cai (h.agents ▸ List.mem_singleton_self cai)).follows hg

omit hkept in
theorem Deletes.of_agents {s' : Session} (h : Deletes tables s cai) (hagents : s'.agents = s.agents)
    (hcreated : s'.created = s.created) : Deletes tables s' cai :=
  ⟨h.mirrors.of_agents hagents, hagents.trans h.agents, hcreated.trans h.created⟩

omit hkept in
theorem Deletes.flush (h : Deletes tables s cai) :
    Deletes tables (s.flush tables) (if cai.Dirty then cai.flush tables.agents else cai) := by
  refine ⟨h.mirrors.flush, ?_, h.created⟩
  show s.agents.map _ = _
  rw [h.agents, List.map_singleton]

omit hkept in
theorem Deletes.commit (h : Deletes tables s cai) (hstatus : cai.current.status = .deleted)
    (hscrubbed : cai.current.provisioning = none) (hrevoked : ∀ key ∈ s.revoked, key.agentId = cai.loaded.agentId)
    (hkept : ∀ b ∈ tables.agents, b.Sealed tables.keys) : (Outcome.commit none s).Keeps tables := by
  intro now tables' hpublish
  obtain ⟨-, hagents, hkeys, -⟩ := publish_eq_some hpublish
  refine ⟨fun b' hb' => ?_, fun p hp => by cases hp⟩
  rcases saveAgents_cases hagents with ⟨-, hsaved⟩ | ⟨r, hcreated, -⟩
  · rw [hsaved] at hb'
    obtain ⟨b, hb, rfl⟩ := Keyed.mem_save.mp hb'
    by_cases hmine : cai.loaded.agentId = b.agentId
    · have hwrite : Keyed.savedRow s.agents b = cai.write b :=
        Keyed.savedRow_of_mem h.mirrors.distinct (h.agents ▸ List.mem_singleton_self cai) hmine
      obtain ⟨hstatus', hprovisioning⟩ := (h.mirrors.faithful cai (h.agents ▸ List.mem_singleton_self cai)).write hb hmine.symm
      rw [hwrite]
      refine sealed_of_none ?_ ?_
      · rw [hstatus', hstatus]
        exact AgentStatus.noConfusion
      · rw [CloudAgentInstance.credentials?, hprovisioning, hscrubbed]
        rfl
    · have hsame : Keyed.savedRow s.agents b = b := by
        rw [h.agents, Keyed.savedRow_singleton, if_neg hmine]
      rw [hsame]
      refine ⟨(hkept b hb).scrubbed, fun hprovisioning => ?_⟩
      obtain ⟨c, hc, hkey⟩ := (hkept b hb).installable hprovisioning
      refine ⟨c, hc, ?_⟩
      rw [hkeys, Session.saveKeys]
      refine List.mem_append_left _ (List.mem_map.mpr ⟨_, hkey, if_neg fun hmem => hmine ?_⟩)
      exact (hrevoked _ hmem).symm
  · rw [h.created] at hcreated
    cases hcreated

theorem deleteCloudAgent_keeps {p : DeletePoint} (hheld : p.Keeps w.tables t.session)
    (hnext : deleteCloudAgent w t.session p reply = some outcome) : outcome.Keeps w.tables := by
  have hproceed := Point.proceed_of_next (p := .delete p) hnext
  cases p with
  | load agentId =>
    obtain rfl := hproceed trivial
    simp only [deleteCloudAgent, Option.some.injEq] at hnext
    have hempty : t.session = {} := hheld
    split at hnext
    · subst hnext
      trivial
    · rename_i cai cdi hload
      split at hnext
      · subst hnext
        trivial
      · subst hnext
        rw [hempty]
        exact ⟨.load _ cai, (guarded_empty.loadRows hkept hload).mirrors, rfl, rfl⟩
  | mark =>
    obtain rfl := hproceed trivial
    cases hnext
    obtain ⟨cai, hdeletes⟩ := hheld
    have hmarked := Deletes.setAgent (g := (·.set fun r => { r with status := .deleting, agentToken := none })) hdeletes
      (cai.follows_set _ _)
    exact ⟨_, hmarked.flush⟩
  | keys =>
    obtain rfl := hproceed trivial
    obtain ⟨cai, hdeletes⟩ := hheld
    refine rows_keeps hnext fun cai' cdi rest hagents hnext => ?_
    obtain rfl := (List.cons.inj (hdeletes.agents.symm.trans hagents)).1
    cases hnext
    have hscrubbed := follows_scrubProvisioningMetadata cai
    refine ⟨scrubProvisioningMetadata cai, ?_, ?_, ?_⟩
    · exact Deletes.setAgent (hdeletes.of_agents rfl rfl) hscrubbed
    · unfold scrubProvisioningMetadata
      split
      · assumption
      · rfl
    · have hrevoked : ∀ key ∈ w.activeKeys cai.current.agentId, key.agentId = (scrubProvisioningMetadata cai).loaded.agentId := by
        intro key hkey
        rw [hscrubbed.1]
        have hmine := (of_decide_eq_true (List.mem_filter.mp hkey).2).1
        exact hmine.trans cai.key_current
      simp only [Session.setAgent, hdeletes.agents]
      exact hrevoked
  | count =>
    obtain rfl := hproceed trivial
    cases hnext
    obtain ⟨cai, hdeletes, hscrubbed, hrevoked⟩ := hheld
    refine ⟨_, hdeletes.flush, ?_, fun key hkey => (hrevoked key hkey).trans ?_⟩
    · split
      · exact hscrubbed
      · exact hscrubbed
    · split
      · exact cai.key_current.symm
      · rfl
  | revoke =>
    obtain rfl := hproceed trivial
    refine cdi_keeps hnext fun cdi hnext => ?_
    refine ite_keeps hnext (fun _ => hheld) fun _ => ?_
    obtain ⟨cai, hdeletes, hscrubbed, hrevoked⟩ := hheld
    refine (Deletes.setAgent (g := (·.set fun r => { r with status := .deleted })) hdeletes (cai.follows_set _ _)).commit
      rfl hscrubbed (fun key hkey => ?_) hkept
    simp only [Session.setAgent, hdeletes.agents] at hkey
    exact hrevoked key hkey
  | cleanup =>
    cases reply with
    | raised message =>
      cases hnext
      trivial
    | handle handle =>
      cases hnext
      obtain ⟨cai, hdeletes, hscrubbed, hrevoked⟩ := hheld
      have hcleaned : Deletes w.tables (t.session.setDaemon fun cdi =>
          (applyHandleToRows cdi handle w.now).set fun r => { r with status := .deleted }) cai := hdeletes.of_agents rfl rfl
      refine (Deletes.setAgent (g := (·.set fun r => { r with status := .deleted })) hcleaned (cai.follows_set _ _)).commit
        rfl hscrubbed (fun key hkey => ?_) hkept
      simp only [Session.setAgent, hcleaned.agents] at hkey
      exact hrevoked key hkey
    | proceed | listed | installed | notInstalled => cases hnext

omit hkept in
theorem Guarded.setCreated (h : Guarded tables s) {g : CloudAgent → CloudAgent}
    (hg : ∀ r ∈ s.created, (g (.load _ r)).current.Sealed (tables.keys ++ s.keys)) : Guarded tables (s.setCreated g) := by
  refine ⟨h.mirrors.of_agents rfl, h.agents, fun cai hcai => ?_, h.revoked⟩
  obtain ⟨r, hr, rfl⟩ := Option.map_eq_some_iff.mp hcai
  exact hg r hr

theorem createCloudAgent_keeps {p : CreatePoint} (hheld : (Point.create p).Keeps w.tables t.session)
    (hpoint : t.point = .create p) (hsealing : t.Sealing reply outcome)
    (hnext : createCloudAgent w t.session p reply = some outcome) : outcome.Keeps w.tables := by
  have hproceed := Point.proceed_of_next (p := .create p) hnext
  have hkeep : ∀ q, ((Point.create q).IsClear → (Point.create p).IsClear) → (Point.create q).Keeps w.tables t.session :=
    fun q hq => ⟨hheld.1, fun hclear => hheld.2.1 (hq hclear), hheld.2.2⟩
  cases p with
  | quota | recheck =>
    obtain rfl := hproceed trivial
    refine ite_keeps hnext (fun _ => trivial) fun _ => ?_
    exact hkeep _ fun _ => trivial
  | lock =>
    obtain rfl := hproceed trivial
    cases hnext
    exact hkeep _ fun _ => trivial
  | pick =>
    obtain rfl := hproceed trivial
    simp only [createCloudAgent, Option.some.injEq] at hnext
    split at hnext
    · subst hnext
      exact hkeep _ fun _ => trivial
    · subst hnext
      exact hkeep _ fun _ => trivial
  | row id =>
    obtain rfl := hproceed trivial
    simp only [createCloudAgent, Option.some.injEq] at hnext
    split at hnext
    · subst hnext
      exact hkeep _ fun _ => trivial
    · subst hnext
      exact ⟨hheld.1.of_agents rfl rfl rfl rfl, hheld.2⟩
  | capacity =>
    obtain rfl := hproceed trivial
    refine cdi_keeps hnext fun cdi hnext => ?_
    refine ite_keeps hnext (fun _ => trivial) fun _ => ?_
    exact hkeep _ fun _ => trivial
  | insert =>
    obtain rfl := hproceed trivial
    cases hnext
    refine ⟨Guarded.flush ?_, hheld.2⟩
    exact hheld.1.of_agents rfl rfl rfl rfl
  | agent =>
    obtain rfl := hproceed trivial
    refine cdi_keeps hnext fun cdi hnext => ?_
    cases hnext
    obtain ⟨h, hclear, -⟩ := hheld
    refine ⟨Guarded.flush ⟨h.mirrors.of_agents rfl, fun cai hcai => ?_, fun cai hcai => ?_, h.revoked⟩,
      fun hclear => hclear.elim, fun cai hcai => ?_⟩
    · have hsealed := h.agents cai hcai
      rw [(hclear trivial).1, List.append_nil] at hsealed
      exact hsealed.mono fun key hkey => List.mem_append_left _ hkey
    · cases hcai
      refine ⟨fun hne => absurd rfl hne, fun _ => ⟨_, rfl, ?_⟩⟩
      exact List.mem_append_right _ (List.mem_singleton_self _)
    · cases hcai
      rfl
  | start =>
    obtain rfl := hproceed trivial
    refine cdi_keeps hnext fun cdi hnext => ?_
    refine ite_keeps hnext (fun _ => ⟨hheld.1.loadAgentsOf hkept _ _, fun hclear => hclear.elim, hheld.2.2⟩) fun _ => ?_
    exact hkeep _ fun hclear => hclear.elim
  | prepare =>
    obtain rfl := hproceed trivial
    refine cdi_keeps hnext fun cdi hnext => ?_
    cases hnext
    obtain ⟨h, -, hprovisioning⟩ := hheld
    have hdaemon : ∀ o, Guarded w.tables { t.session with daemon := o } := fun _ => h.of_agents rfl rfl rfl rfl
    have hprepared := (hdaemon (some ((beginRelaunch cdi (w.fresh 0)).set fun r =>
      { r with status := .starting, errorCode := none, errorMessage := none }))).setCreated
        (g := fun cai => (tagProvisioning cai (w.fresh 0)).set fun r => { r with status := .provisioning }) fun r hr =>
          (h.created r hr).congr rfl (hprovisioning r hr).symm (credentials_tag (.load _ r) _)
    intro now tables' hpublish
    obtain ⟨hkept', hsaved⟩ := hprepared.commit hkept hpublish
    refine ⟨hkept', fun p hp => ?_⟩
    cases hp
    refine ⟨hsaved, fun state hstate => ?_⟩
    obtain ⟨cai, hcai, rfl⟩ := List.mem_map.mp hstate
    rw [keys_publish hprepared.revoked hpublish]
    exact h.agents cai hcai
  | provider =>
    cases reply with
    | raised message =>
      unfold Task.Sealing at hsealing
      rw [hpoint] at hsealing
      exact hsealing.elim
    | handle handle =>
      refine cdi_keeps hnext fun cdi hnext => ?_
      cases hnext
      obtain ⟨h, -, hprovisioning⟩ := hheld
      have hdaemon : ∀ o, Guarded w.tables { t.session with daemon := o } := fun _ => h.of_agents rfl rfl rfl rfl
      have hanswered : ∀ o, Guarded w.tables ({ t.session with daemon := o }.setCreated fun cai =>
          if handle.status = DaemonStatus.ready then scrubProvisioningMetadata (cai.set fun r => { r with status := .ready })
          else if handle.status = DaemonStatus.failed then
            scrubProvisioningMetadata (setStatus cai .failed handle.errorCode handle.errorMessage)
          else cai) := by
        intro o
        refine (hdaemon o).setCreated fun r hr => ?_
        split
        · exact sealed_scrub AgentStatus.noConfusion
        · split
          · exact sealed_scrub AgentStatus.noConfusion
          · exact h.created r hr
      exact (hanswered _).keeps_commit hkept resumes_none
    | proceed | listed | installed | notInstalled => cases hnext

end Calls

section Tables

variable (hagents : tables'.agents = tables.agents) (hkeys : tables'.keys = tables.keys)
include hagents

theorem Mirrors.of_tables (h : Mirrors tables s) : Mirrors tables' s := by
  refine ⟨fun cai hcai => ?_, h.distinct⟩
  unfold Faithful
  rw [hagents]
  exact h.faithful cai hcai

theorem Deletes.of_tables {cai : CloudAgent} (h : Deletes tables s cai) : Deletes tables' s cai :=
  ⟨h.mirrors.of_tables hagents, h.agents, h.created⟩

include hkeys

theorem Guarded.of_tables (h : Guarded tables s) : Guarded tables' s := by
  refine ⟨h.mirrors.of_tables hagents, ?_, ?_, h.revoked⟩
  · rw [hkeys]
    exact h.agents
  · rw [hkeys]
    exact h.created

theorem Point.Keeps.of_tables (h : point.Keeps tables s) : point.Keeps tables' s := by
  cases point with
  | create p => exact ⟨h.1.of_tables hagents hkeys, h.2⟩
  | relaunch r =>
    refine ⟨h.1.of_tables hagents hkeys, ?_⟩
    rw [hkeys]
    exact h.2
  | delete p =>
    cases p with
    | load => exact h
    | mark | keys =>
      obtain ⟨cai, hdeletes⟩ := h
      exact ⟨cai, hdeletes.of_tables hagents⟩
    | count | revoke | cleanup =>
      obtain ⟨cai, hdeletes, hscrubbed⟩ := h
      exact ⟨cai, hdeletes.of_tables hagents, hscrubbed⟩
  | resume caller p =>
    cases p with
    | lock | load | probe | provision | install | other | start | provider => exact ⟨h.1.of_tables hagents hkeys, h.2⟩
  | pause p =>
    cases p with
    | load | flush => exact ⟨h.1.of_tables hagents hkeys, h.2⟩
    | peers | provider => exact ⟨h.1.of_tables hagents, h.2⟩
  | restart | idle | hello | run | send => exact ⟨h.1.of_tables hagents hkeys, h.2⟩

end Tables

/-! ### Every step -/

section Step

variable {reply : Reply}

theorem Point.next_keeps (hkept : d.Sealed) (hheld : t.point.Keeps d.tables t.session) (hsealing : t.Sealing reply outcome)
    (hnext : t.point.next d.world t.session reply = some outcome) : outcome.Keeps d.tables := by
  have hkept : ∀ b ∈ d.world.tables.agents, b.Sealed d.world.tables.keys := hkept
  cases hpoint : t.point with
  | create p =>
    rw [hpoint] at hheld hnext
    exact createCloudAgent_keeps hkept hheld hpoint hsealing hnext
  | relaunch r =>
    rw [hpoint] at hheld hnext
    exact relaunchCloudDaemon_keeps hkept hheld.1 hheld.2 hnext
  | delete p =>
    rw [hpoint] at hheld hnext
    exact deleteCloudAgent_keeps hkept hheld hnext
  | resume caller p =>
    rw [hpoint] at hheld hnext
    cases p with
    | provider => exact resumeCloudAgent_keeps hkept hheld.1 (fun _ => hheld.2.1) (fun _ => hheld.2.2) hpoint hsealing hnext
    | lock | load | probe | provision | install | other | start =>
      exact resumeCloudAgent_keeps hkept hheld.1 hheld.2 (fun hprovider => by cases hprovider) hpoint hsealing hnext
  | restart p =>
    rw [hpoint] at hheld hnext
    exact restartCloudDaemon_keeps hkept hheld.1 (hheld.2 trivial) hnext
  | pause p =>
    rw [hpoint] at hheld hnext
    exact pauseCloudAgent_keeps hkept hheld hpoint hsealing hnext
  | idle now p =>
    rw [hpoint] at hheld hnext
    exact pauseIdleCloudDaemon_keeps hkept hheld.1 hheld.2 hnext
  | hello p =>
    rw [hpoint] at hheld hnext
    exact provisionPendingForCloudDaemon_keeps hkept hheld.1 hheld.2 hnext
  | run p =>
    rw [hpoint] at hheld hnext
    exact createRun_keeps hkept hheld.1 hheld.2 hnext
  | send agentId =>
    rw [hpoint] at hheld hnext
    exact sendOwnerChat_keeps hkept hheld.1 hnext

theorem Point.raised_keeps (hheld : t.point.Keeps tables t.session) : (t.point.raised t.session).Keeps tables := by
  cases hpoint : t.point with
  | resume caller p =>
    rw [hpoint] at hheld
    have hguarded : Guarded tables t.session := by
      cases p with
      | provider => exact hheld.1
      | lock | load | probe | provision | install | other | start => exact hheld.1
    exact caller.keeps_raised hguarded
  | run p =>
    cases p with
    | room r | insert r => exact ⟨guarded_empty, fun hclear => hclear.elim⟩
    | load | reserve | release => trivial
  | create | relaunch | delete | restart | pause | idle | hello | send => trivial

theorem begins_keeps (hbegins : a.begins? now = some (i, point)) : point.Keeps tables {} := by
  cases a with
  | create =>
    cases hbegins
    exact ⟨guarded_empty, fun _ => ⟨rfl, rfl⟩, fun _ hcai => by cases hcai⟩
  | delete =>
    cases hbegins
    rfl
  | idle =>
    cases hbegins
    exact ⟨guarded_empty, fun _ hcai => by cases hcai⟩
  | resume | restart | pause | hello | run | send =>
    cases hbegins
    exact ⟨guarded_empty, fun _ => ⟨rfl, rfl⟩⟩
  | next | raise | abort | connect | progress | settle | tick => cases hbegins

structure Alone (d : Hub) : Prop where
  kept : d.Sealed
  held : ∀ t ∈ d.calls, t.point.Keeps d.tables t.session
  only : ∀ t ∈ d.calls, ∀ t' ∈ d.calls, t = t'

theorem Alone.step (h : Alone d) (hsealing : d.Sealing a) (hstep : sequence.step d a = some d') : Alone d' := by
  have hidle : ¬ ((a.begins? d.now).isSome = true ∧ d.calls.rows ≠ []) := by
    intro hboth
    rw [show sequence.step d a = none from if_pos hboth] at hstep
    cases hstep
  rw [show sequence.step d a = hub.step d a from if_neg hidle] at hstep
  have hexchange : ∀ {before after : Option Task}, d.calls.Exchange d'.calls before after →
      (∀ x ∈ d.calls, some x = before) → d'.Sealed → (∀ t' ∈ after, t'.point.Keeps d'.tables t'.session) → Alone d' := by
    intro before after hcalls hall hkept hafter
    have hnew : ∀ x ∈ d'.calls, after = some x := by
      intro x hx
      rcases hcalls.cases x hx with ⟨hold, hne⟩ | hnew
      · exact absurd (hall x hold) hne
      · exact hnew
    exact ⟨hkept, fun t' ht' => hafter t' (hnew t' ht'), fun t ht t' ht' => Option.some.inj ((hnew t ht).symm.trans (hnew t' ht'))⟩
  cases step_cases hstep with
  | began i point hbegins hbegin =>
    obtain ⟨hcalls, htables, -⟩ := Hub.exchange_begin hbegin
    have hnone : d.calls.rows = [] := by
      by_contra hsome
      exact hidle ⟨by rw [hbegins]; rfl, hsome⟩
    refine hexchange hcalls (fun x hx => ?_) ?_ fun t' ht' => ?_
    · rw [show x ∈ d.calls ↔ x ∈ d.calls.rows from Iff.rfl, hnone] at hx
      cases hx
    · unfold Hub.Sealed
      rw [htables]
      exact h.kept
    · cases ht'
      exact begins_keeps hbegins
  | performed i t outcome ht houtcome hperform =>
    have hmem : t ∈ d.calls := (Keyed.get?_eq_some_iff.mp ht).1
    have hkeeps : outcome.Keeps d.tables := by
      rcases houtcome with ⟨reply, rfl, hnext⟩ | ⟨-, rfl⟩
      · exact Point.next_keeps h.kept (h.held t hmem) (hsealing t ht outcome hnext) hnext
      · exact Point.raised_keeps (h.held t hmem)
    obtain ⟨-, after, hcalls, hperformed⟩ := perform_cases (get?_id ht) hperform
    have hall : ∀ x ∈ d.calls, some x = some t := fun x hx => congrArg some (h.only x hx t hmem)
    suffices hdone : d'.Sealed ∧ ∀ t' ∈ after, t'.point.Keeps d'.tables t'.session from hexchange hcalls hall hdone.1 hdone.2
    unfold Hub.Sealed
    generalize d'.tables = tables at hperformed ⊢
    cases hperformed with
    | goto | acquire | select | flush | rollback =>
      refine ⟨h.kept, fun t' ht' => ?_⟩
      cases ht'
      exact hkeeps
    | commit point s tables hfree hindex hpublish =>
      obtain ⟨hkept, hafter⟩ := hkeeps d.now tables hpublish
      refine ⟨hkept, fun t' ht' => ?_⟩
      obtain ⟨p, rfl, rfl⟩ := Option.map_eq_some_iff.mp ht'
      exact hafter p rfl
    | finish => exact ⟨h.kept, fun t' ht' => by cases ht'⟩
    | refused outcome after hafter =>
      refine ⟨h.kept, fun t' ht' => ?_⟩
      obtain ⟨runId, rfl⟩ := hafter t' ht'
      exact ⟨guarded_empty, fun hclear => hclear.elim⟩
  | ended i t ht hend =>
    subst hend
    have hmem : t ∈ d.calls := (Keyed.get?_eq_some_iff.mp ht).1
    exact hexchange (Hub.exchange_finish ht) (fun x hx => congrArg some (h.only x hx t hmem)) h.kept fun _ hnone => by cases hnone
  | outside hcalls hlimits hdaemons hagents hkeys =>
    have hsame : ∀ t ∈ d.calls, t.point.Keeps d'.tables t.session := fun t ht => (h.held t ht).of_tables hagents hkeys
    refine ⟨?_, ?_, ?_⟩
    · unfold Hub.Sealed
      rw [hagents, hkeys]
      exact h.kept
    · rw [hcalls]
      exact hsame
    · rw [hcalls]
      exact h.only

end Step

theorem alone_empty (limits : Limits) : Alone { limits } :=
  ⟨fun _ hb => (by cases hb), fun _ ht => (by cases ht), fun _ ht => (by cases ht)⟩

/-- In every sequence of calls in which none of the four branches is taken, an agent has a private key while it is provisioned, and at no other time. -/
theorem private_keys_sealed (limits : Limits) {actions : List Action} {d : Hub} (hmeets : sequence.Meets Hub.Sealing { limits } actions)
    (hrun : sequence.run { limits } actions = some d) : d.Sealed :=
  (sequence.run_invariant_of_meets (fun _ _ _ => Alone.step) (alone_empty limits) hmeets hrun).kept

/-- The first agent of a user, with what the provider answers. -/
def creation (reply : Reply) : List Action := .create 1 :: List.replicate 7 (.next 1 .proceed) ++ [.next 1 reply]

def handshake : List Action :=
  [.connect (4, 0) true, .hello 2 (4, 0) none, .next 2 .proceed, .next 2 (.listed (.ok []))] ++ List.replicate 3 (.next 2 .proceed) ++
    [.next 2 .installed, .next 2 .proceed]

/-- The agents with a private key that are not provisioned. -/
def Hub.leaked (d : Hub) : List AgentStatus :=
  (d.tables.agents.rows.filter fun a => a.credentials? ≠ none ∧ a.status ≠ .provisioning).map CloudAgentInstance.status

theorem Hub.Sealed.leaked (h : d.Sealed) : d.leaked = [] := by
  refine List.map_eq_nil_iff.mpr (List.filter_eq_nil_iff.mpr fun a ha => ?_)
  simp only [decide_eq_true_eq, not_and, not_not]
  intro hcredentials
  by_contra hstatus
  exact hcredentials ((h a ha).scrubbed hstatus)

/-- An agent is created, and installed when its daemon connects. -/
theorem private_keys_sealed_installed : ∃ d, sequence.run {} (creation (.handle { status := .starting }) ++ handshake) = some d ∧
    d.tables.agents.rows.map CloudAgentInstance.status = [.ready] ∧ d.Sealed := by
  have hrun : (sequence.run {} (creation (.handle { status := .starting }) ++ handshake)).any
      (fun d => d.tables.agents.rows.map CloudAgentInstance.status = [.ready]) = true := by
    decide +kernel
  obtain ⟨d, hrun, hready⟩ := (Option.any_eq_true _ _).mp hrun
  exact ⟨d, hrun, of_decide_eq_true hready, private_keys_sealed {} (by decide +kernel) hrun⟩

/-- The provider raises while an agent is created; it answers a resumption that the sandbox is ready; an agent is paused that waits for its installation; the daemon cannot be asked whether it has the agent. -/
theorem private_key_leaked :
    (sequence.run {} (creation (.raised "timeout"))).map Hub.leaked = some [.failed] ∧
      (sequence.run {} (creation (.handle { status := .starting }) ++ .resume 2 (5, 0) :: List.replicate 4 (.next 2 .proceed) ++
        [.next 2 (.handle { status := .ready })])).map Hub.leaked = some [.ready] ∧
      (sequence.run {} (creation (.handle { status := .starting }) ++ .pause 2 (5, 0) :: List.replicate 3 (.next 2 .proceed) ++
        [.next 2 (.handle { status := .paused })])).map Hub.leaked = some [.paused] ∧
      (sequence.run {} (creation (.handle { status := .ready }) ++ .connect (4, 0) true :: .resume 2 (5, 0) ::
        List.replicate 2 (.next 2 .proceed) ++ [.next 2 (.listed (.ok [])), .next 2 .proceed,
          .next 2 (.notInstalled "cloud_daemon_ack_timeout" ""), .resume 3 (5, 0)] ++ List.replicate 2 (.next 3 .proceed) ++
          [.next 3 (.listed (.error "cloud_daemon_ack_timeout"))])).map Hub.leaked = some [.ready] ∧
      ¬ ∀ limits actions d, sequence.run { limits } actions = some d → d.Sealed := by
  have hcreated : (sequence.run {} (creation (.raised "timeout"))).map Hub.leaked = some [.failed] := by
    decide +kernel
  refine ⟨hcreated, by decide +kernel, by decide +kernel, by decide +kernel, fun hsealed => ?_⟩
  obtain ⟨d, hrun, hleaked⟩ := Option.map_eq_some_iff.mp hcreated
  have hnone := (hsealed {} _ d hrun).leaked
  rw [hleaked] at hnone
  cases hnone

end BotCord.Cloud
