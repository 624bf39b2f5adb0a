import BotCord.Cloud.Hub
import BotCord.Foundation.Exchange

/-!
# Steps of the calls

What a step of the system does: a call begins, does one thing and goes on or ends, or is cut off; and what a commit leaves in the tables.
-/

namespace BotCord.Cloud

variable {d d' : Hub} {t t' x : Task} {i : ℕ} {before after : Option Task} {s : Session} {point : Point} {outcome : Outcome}
  {tables tables' : Tables}

namespace Hub

theorem exchange_put (ht : d.calls.get? t'.id = some t) : d.calls.Exchange (d.put t').calls (some t) (some t') := by
  have hid : t.id = t'.id := (Keyed.get?_eq_some_iff.mp ht).2
  have hexchange := Keyed.exchange_modify (f := fun x : Task => { t' with id := x.id }) (fun _ => rfl) ht
  rw [hid] at hexchange
  exact hexchange

theorem exchange_finish (ht : d.calls.get? i = some t) : d.calls.Exchange (d.finish i).calls (some t) none :=
  Keyed.exchange_remove ht

theorem exchange_refuse (point : Point) (ht : d.calls.get? i = some t) :
    ∃ after, d.calls.Exchange (d.refuse i point).calls (some t) after ∧
      ∀ t' ∈ after, ∃ runId, t' = { id := i, point := .run (.release runId) } := by
  unfold refuse
  split
  · rename_i r p
    refine ⟨_, exchange_put ht, fun t' ht' => ?_⟩
    cases ht'
    exact ⟨r.runId, rfl⟩
  · exact ⟨none, exchange_finish ht, fun _ hnone => by cases hnone⟩

theorem tables_refuse : (d.refuse i point).tables = d.tables := by
  unfold refuse
  split
  · rfl
  · rfl

theorem limits_refuse : (d.refuse i point).limits = d.limits := by
  unfold refuse
  split
  · rfl
  · rfl

end Hub

inductive Performed (d : Hub) (t : Task) : Outcome → Option Task → Tables → Prop
  | goto (point : Point) (s : Session) : Performed d t (.goto point s) (some { t with point, session := s }) d.tables
  | acquire (point : Point) (s : Session) (hfree : ¬ ∃ x ∈ d.others t.id, x.lock = true) :
    Performed d t (.acquire point s) (some { t with point, session := s, lock := true }) d.tables
  | select (id : DaemonId) (point : Point) (s : Session) (hfree : ¬ ∃ x ∈ d.others t.id, x.daemonLock = some id) :
    Performed d t (.select id point s) (some { t with point, session := s, daemonLock := some id }) d.tables
  | flush (point : Point) (s : Session) (hfree : ¬ d.Blocked t.id s) :
    Performed d t (.flush point s) (some (t.flush point s d.tables)) d.tables
  | commit (point : Option Point) (s : Session) (tables : Tables) (hfree : ¬ d.Blocked t.id s) (hindex : ¬ d.Refused s)
      (hpublish : s.publish d.now d.tables = some tables) :
    Performed d t (.commit point s) (point.map fun point => { id := t.id, point, session := s.saved }) tables
  | rollback (point : Point) : Performed d t (.rollback point) (some { id := t.id, point }) d.tables
  | finish : Performed d t .finish none d.tables
  /-- The index has refused what it writes. -/
  | refused (outcome : Outcome) (after : Option Task)
      (hafter : ∀ t' ∈ after, ∃ runId, t' = { id := t.id, point := .run (.release runId) }) : Performed d t outcome after d.tables

theorem perform_cases (ht : d.calls.get? t.id = some t) (hperform : d.perform t outcome = some d') :
    d'.limits = d.limits ∧ ∃ after, d.calls.Exchange d'.calls (some t) after ∧ Performed d t outcome after d'.tables := by
  have hrefused : ∀ outcome, (d.refuse t.id t.point).limits = d.limits ∧
      ∃ after, d.calls.Exchange (d.refuse t.id t.point).calls (some t) after ∧
        Performed d t outcome after (d.refuse t.id t.point).tables := by
    intro outcome
    obtain ⟨after, hcalls, hafter⟩ := Hub.exchange_refuse t.point ht
    rw [Hub.tables_refuse]
    exact ⟨Hub.limits_refuse, after, hcalls, .refused outcome after hafter⟩
  cases outcome with
  | goto point s =>
    cases hperform
    exact ⟨rfl, _, Hub.exchange_put ht, .goto point s⟩
  | acquire point s =>
    simp only [Hub.perform] at hperform
    split at hperform
    · cases hperform
    · rename_i hfree
      cases hperform
      exact ⟨rfl, _, Hub.exchange_put ht, .acquire point s hfree⟩
  | select id point s =>
    simp only [Hub.perform] at hperform
    split at hperform
    · cases hperform
    · rename_i hfree
      cases hperform
      exact ⟨rfl, _, Hub.exchange_put ht, .select id point s hfree⟩
  | flush point s =>
    simp only [Hub.perform] at hperform
    split at hperform
    · cases hperform
    · rename_i hfree
      split at hperform
      · cases hperform
        exact hrefused _
      · cases hperform
        exact ⟨rfl, _, Hub.exchange_put ht, .flush point s hfree⟩
  | commit point s =>
    simp only [Hub.perform] at hperform
    split at hperform
    · cases hperform
    · rename_i hfree
      split at hperform
      · cases hperform
        exact hrefused _
      · rename_i hindex
        obtain ⟨tables, hpublish, rfl⟩ := Option.map_eq_some_iff.mp hperform
        have hcommit : Performed d t (.commit point s) _ tables := .commit point s tables hfree hindex hpublish
        cases point with
        | none => exact ⟨rfl, none, Hub.exchange_finish (d := { d with tables }) ht, hcommit⟩
        | some point => exact ⟨rfl, _, Hub.exchange_put (d := { d with tables }) ht, hcommit⟩
  | rollback point =>
    cases hperform
    exact ⟨rfl, _, Hub.exchange_put ht, .rollback point⟩
  | finish =>
    cases hperform
    exact ⟨rfl, none, Hub.exchange_finish ht, .finish⟩

def Action.begins? (now : Delivery.Instant) : Action → Option (ℕ × Point)
  | .create i => some (i, .create .quota)
  | .delete i agentId => some (i, .delete (.load agentId))
  | .resume i agentId => some (i, .resume .request (.lock agentId))
  | .restart i id => some (i, .restart (.lock id))
  | .pause i agentId => some (i, .pause (.load agentId))
  | .idle i id => some (i, .idle now (.load id))
  | .hello i id launchToken => some (i, .hello (.load id launchToken))
  | .run i agentId => some (i, .run (.load agentId))
  | .send i agentId => some (i, .resume (.send agentId) (.lock agentId))
  | _ => none

/-- What a step does: a call begins, goes on or ends, or something happens outside of the calls. -/
inductive Stepped (d : Hub) (a : Action) (d' : Hub) : Prop
  | began (i : ℕ) (point : Point) (hbegins : a.begins? d.now = some (i, point)) (hbegin : d.begin i point = some d')
  | performed (i : ℕ) (t : Task) (outcome : Outcome) (ht : d.calls.get? i = some t)
      (houtcome : (∃ reply, a = .next i reply ∧ t.point.next d.world t.session reply = some outcome) ∨
        a = .raise i ∧ t.point.raised t.session = outcome)
      (hperform : d.perform t outcome = some d')
  | ended (i : ℕ) (t : Task) (ht : d.calls.get? i = some t) (hend : d' = d.finish i)
  | outside (hcalls : d'.calls = d.calls) (hlimits : d'.limits = d.limits) (hdaemons : d'.tables.daemons = d.tables.daemons)
      (hagents : d'.tables.agents = d.tables.agents) (hkeys : d'.tables.keys = d.tables.keys)

theorem step_cases {a : Action} (hstep : hub.step d a = some d') : Stepped d a d' := by
  cases a with
  | create | delete | resume | restart | pause | idle | hello | run | send => exact .began _ _ rfl hstep
  | next i reply =>
    obtain ⟨t, ht, hnext⟩ := Option.bind_eq_some_iff.mp hstep
    obtain ⟨outcome, houtcome, hperform⟩ := Option.bind_eq_some_iff.mp hnext
    exact .performed i t outcome ht (.inl ⟨reply, rfl, houtcome⟩) hperform
  | raise i =>
    obtain ⟨t, ht, hperform⟩ := Option.bind_eq_some_iff.mp hstep
    exact .performed i t _ ht (.inr ⟨rfl, rfl⟩) hperform
  | abort i =>
    obtain ⟨t, ht, hend⟩ := Option.map_eq_some_iff.mp hstep
    exact .ended i t ht hend.symm
  | connect | progress | settle | tick =>
    cases hstep
    exact .outside rfl rfl rfl rfl rfl

theorem get?_id (ht : d.calls.get? i = some t) : d.calls.get? t.id = some t := by
  rw [(Keyed.get?_eq_some_iff.mp ht).2]
  exact ht

theorem Hub.exchange_begin (hbegin : d.begin i point = some d') :
    d.calls.Exchange d'.calls none (some { id := i, point }) ∧ d'.tables = d.tables ∧ d'.limits = d.limits := by
  obtain ⟨calls, hinsert, rfl⟩ := Option.map_eq_some_iff.mp hbegin
  exact ⟨(Keyed.insert?_eq_some hinsert).exchange, rfl, rfl⟩

theorem publish_eq_some {now : Delivery.Instant} (hpublish : s.publish now tables = some tables') :
    s.saveDaemon tables.daemons = some tables'.daemons ∧ s.saveAgents tables.agents = some tables'.agents ∧
      tables'.keys = s.saveKeys tables.keys ∧ s.saveMessages now tables.messages = some tables'.messages ∧
      s.saveReservations tables.reservations = some tables'.reservations := by
  unfold Session.publish at hpublish
  obtain ⟨daemons, hdaemons, hpublish⟩ := Option.bind_eq_some_iff.mp hpublish
  obtain ⟨agents, hagents, hpublish⟩ := Option.bind_eq_some_iff.mp hpublish
  obtain ⟨messages, hmessages, hpublish⟩ := Option.bind_eq_some_iff.mp hpublish
  obtain ⟨reservations, hreservations, hpublish⟩ := Option.bind_eq_some_iff.mp hpublish
  cases hpublish
  exact ⟨hdaemons, hagents, rfl, hmessages, hreservations⟩

theorem saveAgents_cases {agents agents' : Keyed CloudAgentInstance.agentId} (hsave : s.saveAgents agents = some agents') :
    (s.created = none ∧ agents' = agents.save s.agents) ∨
      ∃ cai, s.created = some cai ∧ (agents.save s.agents).Adds cai agents' := by
  unfold Session.saveAgents at hsave
  split at hsave
  · rename_i hcreated
    exact .inl ⟨hcreated, (Option.some.inj hsave).symm⟩
  · rename_i cai hcreated
    exact .inr ⟨cai, hcreated, Keyed.insert?_eq_some hsave⟩

section Queries

variable {w : World}

theorem mem_agentsOf {id : DaemonId} {p : AgentStatus → Prop} [DecidablePred p] {cai : CloudAgentInstance} (hcai : cai ∈ w.agentsOf id p) :
    cai ∈ w.tables.agents ∧ cai.cloudDaemonInstanceId = id ∧ p cai.status := by
  obtain ⟨hmem, hp⟩ := List.mem_filter.mp hcai
  exact ⟨hmem, of_decide_eq_true hp⟩

theorem loadOwned_eq_some {agentId : AgentId} {cai : CloudAgentInstance} {cdi : CloudDaemonInstance}
    (hload : w.loadOwned agentId = some (cai, cdi)) :
    (cai ∈ w.tables.agents ∧ cai.agentId = agentId) ∧ cdi ∈ w.tables.daemons ∧ cdi.id = cai.cloudDaemonInstanceId := by
  obtain ⟨x, hx, hload⟩ := Option.bind_eq_some_iff.mp hload
  obtain ⟨y, hy, hpair⟩ := Option.map_eq_some_iff.mp hload
  cases hpair
  exact ⟨Keyed.get?_eq_some_iff.mp hx, Keyed.get?_eq_some_iff.mp hy⟩

end Queries

end BotCord.Cloud
