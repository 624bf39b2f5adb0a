import BotCord.Bindings.Service

/-!
# Binding is exclusive

A claim looks at the agent, at the quota and at whether the agent is the user's first, and writes later. Where what a call has read is still so when it commits, an agent goes from no user to one and from one to none, no user has more agents than its quota, and a user with agents has one default.
-/

namespace BotCord.Bindings

open Spaces (UserId AgentId User AgentStatus)

def Agent.DefaultOf (userId : UserId) (a : Agent) : Prop := a.BoundTo userId ∧ a.isDefault = true
deriving Decidable

/-- Every user is within its quota, and has one default if it has agents. -/
def Exclusive (s : Store) : Prop := ∀ user ∈ s.users,
  (s.boundAgents user.id).length ≤ user.maxAgents ∧
    (s.boundAgents user.id ≠ [] → s.agents.rows.countP (Agent.DefaultOf user.id ·) = 1)
deriving Decidable

def UserMoves (s t : Store) : Prop :=
  ∀ a ∈ s.agents, ∃ b ∈ t.agents, b.agentId = a.agentId ∧ (b.userId = a.userId ∨ a.userId = none ∨ b.userId = none)
deriving Decidable

def rely : Rely Store AgentId where
  β _ := Option Agent
  row id s := s.agents.get? id
  inv := Exclusive
  since s t := t.users = s.users
  commits := UserMoves
  trusted := True
  refl _ := rfl
  trans _ _ _ h h' := h'.trans h

section Counting

variable {s t : Store} {q : Agent → Prop} [DecidablePred q] {a : Agent} {userId : UserId} {agentId : AgentId}
  {f : Agent → Agent} {user : User} {isFirst : Bool}

def count (q : Agent → Prop) [DecidablePred q] (s : Store) : ℕ := s.agents.rows.countP (q ·)

theorem length_boundAgents : (s.boundAgents userId).length = count (Agent.BoundTo userId) s := List.countP_eq_length_filter.symm

theorem count_le {r : Agent → Prop} [DecidablePred r] (h : ∀ a, q a → r a) : count q s ≤ count r s :=
  List.countP_mono_left fun a _ hq => by simpa using h a (by simpa using hq)

theorem count_setAgent (hf : ∀ a, (f a).agentId = a.agentId) (ha : s.agents.get? agentId = some a) :
    count q (s.setAgent agentId f hf) + (if q a then 1 else 0) = count q s + if q (f a) then 1 else 0 := by
  obtain ⟨hmem, rfl⟩ := Keyed.get?_eq_some_iff.mp ha
  have htotal : Table.total (fun x => if q x then 1 else 0) (Table.update (·.agentId = a.agentId) f s.agents.rows) = _ :=
    Table.total_update_key s.agents.distinct hmem
  rw [Table.total_indicator, Table.total_indicator] at htotal
  have hrows : (count q (s.setAgent a.agentId f hf) : ℤ) =
      count q s - (if q a then 1 else 0) + if q (f a) then 1 else 0 := htotal
  split at hrows <;> split at hrows <;> simp only [*, if_true, if_false] <;> omega

theorem count_insertAgent (ht : s.insertAgent a = some t) :
    count q t = count q s + (if q a then 1 else 0) ∧ s.agents.Adds a t.agents ∧ t.users = s.users := by
  obtain ⟨-, ht⟩ := Option.ite_none_right_eq_some.mp ht
  obtain ⟨agents, hagents, rfl⟩ := Option.map_eq_some_iff.mp ht
  have hadds := Keyed.insert?_eq_some hagents
  refine ⟨?_, hadds, rfl⟩
  show agents.rows.countP _ = s.agents.rows.countP _ + _
  rw [hadds.rows, List.countP_append, List.countP_singleton]
  simp

theorem exclusive_iff : Exclusive s ↔ ∀ user ∈ s.users, count (Agent.BoundTo user.id) s ≤ user.maxAgents ∧
    (0 < count (Agent.BoundTo user.id) s → count (Agent.DefaultOf user.id) s = 1) := by
  refine forall₂_congr fun user _ => ?_
  rw [length_boundAgents, ← length_boundAgents, List.length_pos_iff]
  rfl

/-- One agent more for a user who has room for it, as the default if it is the first. -/
theorem Exclusive.more (h : Exclusive s) (huser : user ∈ s.users)
    (hquota : quotaAsRead user isFirst s = true) (husers : t.users = s.users)
    (hbound : ∀ v, count (Agent.BoundTo v) t = count (Agent.BoundTo v) s + if v = user.id then 1 else 0)
    (hdefault : ∀ v, count (Agent.DefaultOf v) t =
      count (Agent.DefaultOf v) s + if v = user.id ∧ isFirst = true then 1 else 0) : Exclusive t := by
  obtain ⟨hroom, hfirst⟩ := of_decide_eq_true hquota
  rw [Store.WithinQuota, length_boundAgents] at hroom
  rw [exclusive_iff] at h ⊢
  intro v hv
  rw [husers] at hv
  obtain ⟨hmax, hone⟩ := h v hv
  rw [hbound, hdefault]
  by_cases hid : v.id = user.id
  · cases Keyed.eq_of_key hv huser hid
    have hle : count (Agent.DefaultOf user.id) s ≤ count (Agent.BoundTo user.id) s := count_le fun _ hq => hq.1
    cases isFirst with
    | true =>
      rw [List.isEmpty_iff_length_eq_zero, length_boundAgents] at hfirst
      simp only [true_and, if_true]
      omega
    | false =>
      have hpos : (s.boundAgents user.id).length ≠ 0 := by
        intro hzero
        rw [List.length_eq_zero_iff.mp hzero] at hfirst
        cases hfirst
      rw [length_boundAgents] at hpos
      simp only [true_and, if_true, Bool.false_eq_true, if_false]
      omega
  · simp only [hid, false_and, if_false, Nat.add_zero]
    exact ⟨hmax, hone⟩

theorem Exclusive.less (h : Exclusive s) (userId : UserId) (husers : t.users = s.users)
    (hbound : ∀ v, count (Agent.BoundTo v) t ≤ count (Agent.BoundTo v) s)
    (hother : ∀ v, v ≠ userId → count (Agent.DefaultOf v) t = count (Agent.DefaultOf v) s)
    (hown : 0 < count (Agent.BoundTo userId) t → count (Agent.DefaultOf userId) s = 1 →
      count (Agent.DefaultOf userId) t = 1) : Exclusive t := by
  rw [exclusive_iff] at h ⊢
  intro v hv
  rw [husers] at hv
  obtain ⟨hmax, hone⟩ := h v hv
  refine ⟨Nat.le_trans (hbound v.id) hmax, fun hpos => ?_⟩
  have hbefore := hone (Nat.lt_of_lt_of_le hpos (hbound v.id))
  by_cases hid : v.id = userId
  · subst hid
    exact hown hpos hbefore
  · exact (hother v.id hid).trans hbefore

theorem userMoves_setAgent (hf : ∀ a, (f a).agentId = a.agentId)
    (hmoves : ∀ a ∈ s.agents, a.agentId = agentId → (f a).userId = a.userId ∨ a.userId = none ∨ (f a).userId = none) :
    UserMoves s (s.setAgent agentId f hf) := by
  intro a ha
  refine ⟨_, Keyed.mem_modify_of_mem hf ha, ?_⟩
  split
  · rename_i hid
    exact ⟨hf a, hmoves a ha hid⟩
  · exact ⟨rfl, .inl rfl⟩

theorem row_setAgent (hf : ∀ a, (f a).agentId = a.agentId) {id : AgentId} (hid : id ≠ agentId) :
    (s.setAgent agentId f hf).agents.get? id = s.agents.get? id := by
  have hget := Keyed.get?_modify (t := s.agents) (p := (·.agentId = agentId)) hf id
  refine hget.trans ?_
  cases ha : s.agents.get? id with
  | none => rfl
  | some a =>
    obtain ⟨-, hkey⟩ := Keyed.get?_eq_some_iff.mp ha
    rw [Option.map_some, if_neg (hkey ▸ hid)]

variable {held : AgentId → Prop}

theorem commits_bind (h : Exclusive s) (huser : user ∈ s.users)
    (hquota : quotaAsRead user isFirst s = true) (ha : s.agents.get? agentId = some a) (hclaimable : a.Claimable)
    (hheld : held agentId) (hf : ∀ a, (f a).agentId = a.agentId)
    (hfa : f a = a.bind user.id isFirst) : rely.Commits held s (s.setAgent agentId f hf) where
  inv := by
    have hnot : ∀ v, ¬ a.BoundTo v := by
      intro v hv
      have := hclaimable.1.symm.trans hv.1
      cases this
    have hbound : ∀ v, (f a).BoundTo v ↔ v = user.id := by
      intro v
      rw [hfa]
      constructor
      · exact fun hv => (Option.some.inj hv.1).symm
      · rintro rfl
        exact ⟨rfl, hclaimable.2⟩
    refine h.more huser hquota rfl (fun v => ?_) fun v => ?_
    · have hcount := count_setAgent (q := Agent.BoundTo v) hf ha
      rw [if_neg (hnot v)] at hcount
      simpa only [hbound, Nat.add_zero] using hcount
    · have hcount := count_setAgent (q := Agent.DefaultOf v) hf ha
      rw [if_neg fun hv => hnot v hv.1] at hcount
      have hdefault : (f a).DefaultOf v ↔ v = user.id ∧ isFirst = true := and_congr (hbound v) (by rw [hfa]; rfl)
      simpa only [hdefault, Nat.add_zero] using hcount
  since := rfl
  frame id hid := row_setAgent hf fun heq => hid (heq ▸ hheld)
  commits := userMoves_setAgent hf fun b hb hid => by
    have hget := Keyed.get?_eq_some_iff.mp ha
    rw [Keyed.eq_of_key hb hget.1 (hid.trans hget.2.symm)]
    exact .inr (.inl hclaimable.1)

theorem commits_insertAgent (h : Exclusive s) (hheld : held a.agentId) (ht : s.insertAgent a = some t)
    (ha : a.userId = none ∨ ∃ user ∈ s.users, a.BoundTo user.id ∧ quotaAsRead user a.isDefault s = true) :
    rely.Commits held s t := by
  obtain ⟨-, hadds, husers⟩ := count_insertAgent (q := Agent.BoundTo 0) ht
  have hcount : ∀ {q : Agent → Prop} [DecidablePred q], count q t = count q s + if q a then 1 else 0 :=
    fun {q} _ => (count_insertAgent (q := q) ht).1
  refine ⟨?_, husers, fun id hid => ?_, fun b hb => ?_⟩
  · rcases ha with hnone | ⟨user, huser, hbound, hquota⟩
    · have hnot : ∀ v, ¬ a.BoundTo v := fun v hv => by cases hnone.symm.trans hv.1
      refine h.less 0 husers (fun v => ?_) (fun v _ => ?_) fun _ hone => ?_
      · rw [hcount, if_neg (hnot v)]
        exact Nat.le_refl _
      · rw [hcount, if_neg fun hv => hnot v hv.1, Nat.add_zero]
      · rw [hcount, if_neg fun hv => hnot 0 hv.1, Nat.add_zero, hone]
    · have hiff : ∀ v, a.BoundTo v ↔ v = user.id := by
        intro v
        constructor
        · exact fun hv => Option.some.inj (hv.1.symm.trans hbound.1)
        · rintro rfl
          exact hbound
      refine h.more huser hquota husers (fun v => ?_) fun v => ?_
      · simp only [hcount, hiff]
      · have hdefault : a.DefaultOf v ↔ v = user.id ∧ a.isDefault = true := and_congr_left' (hiff v)
        simp only [hcount, hdefault]
  · have hne : id ≠ a.agentId := fun heq => hid (heq ▸ hheld)
    exact hadds.get?.trans (if_neg hne)
  · exact ⟨b, hadds.mem_iff.mpr (.inl hb), rfl, .inl rfl⟩

theorem ownAgent_eq_some (h : s.ownAgent agentId userId = some a) :
    s.agents.get? agentId = some a ∧ a.BoundTo userId := by
  obtain ⟨hget, hbound⟩ := Option.filter_eq_some_iff.mp h
  exact ⟨hget, of_decide_eq_true hbound⟩

theorem mem_otherAgents : a ∈ s.otherAgents agentId userId ↔ a ∈ s.agents ∧ a.BoundTo userId ∧ a.agentId ≠ agentId := by
  simp [Store.otherAgents, Store.boundAgents, Keyed.mem_def, and_comm, and_left_comm]

theorem boundTo_iff {v : UserId} (h : a.BoundTo userId) : a.BoundTo v ↔ v = userId := by
  constructor
  · exact fun hv => Option.some.inj (hv.1.symm.trans h.1)
  · rintro rfl
    exact h

section Unbind

variable (claimCode : String) (wasDefault : Bool)

theorem count_unbind (v : UserId) (ha : s.ownAgent agentId userId = some a) :
    count (Agent.BoundTo v) (s.setAgent agentId (Agent.unbind claimCode wasDefault)) + (if v = userId then 1 else 0) =
      count (Agent.BoundTo v) s ∧
    count (Agent.DefaultOf v) (s.setAgent agentId (Agent.unbind claimCode wasDefault)) +
      (if v = userId ∧ a.isDefault = true then 1 else 0) = count (Agent.DefaultOf v) s := by
  obtain ⟨hget, hbound⟩ := ownAgent_eq_some ha
  have hnot : ¬ (a.unbind claimCode wasDefault).BoundTo v := fun hv => by cases hv.1
  have hdefault : a.DefaultOf v ↔ v = userId ∧ a.isDefault = true := and_congr_left' (boundTo_iff hbound)
  constructor
  · have hcount := count_setAgent (q := Agent.BoundTo v) (f := Agent.unbind claimCode wasDefault) (fun _ => rfl) hget
    simpa only [boundTo_iff hbound, if_neg hnot, Nat.add_zero] using hcount
  · have hcount := count_setAgent (q := Agent.DefaultOf v) (f := Agent.unbind claimCode wasDefault) (fun _ => rfl) hget
    have hnot : ¬ (a.unbind claimCode wasDefault).DefaultOf v := fun hv => hnot hv.1
    simpa only [hdefault, if_neg hnot, Nat.add_zero] using hcount

theorem userMoves_unbind : UserMoves s (s.setAgent agentId (Agent.unbind claimCode wasDefault)) :=
  userMoves_setAgent (f := Agent.unbind claimCode wasDefault) (fun _ => rfl) fun _ _ _ => .inr (.inr rfl)

theorem commits_unbind (h : Exclusive s) (ha : s.ownAgent agentId userId = some a) (hdefault : a.isDefault = false)
    (hheld : held agentId) : rely.Commits held s (s.setAgent agentId (Agent.unbind claimCode wasDefault)) where
  inv := by
    refine h.less userId rfl (fun v => ?_) (fun v hv => ?_) fun _ hone => ?_
    · have := (count_unbind claimCode wasDefault v ha).1
      omega
    · have := (count_unbind claimCode wasDefault v ha).2
      simpa [hv] using this
    · have := (count_unbind claimCode wasDefault userId ha).2
      simpa [hdefault, hone] using this
  since := rfl
  frame id hid := row_setAgent _ fun heq => hid (heq ▸ hheld)
  commits := userMoves_unbind claimCode wasDefault

theorem commits_unbind_last (h : Exclusive s) (ha : s.ownAgent agentId userId = some a)
    (hnone : s.nextDefault agentId userId = none) (hheld : held agentId) :
    rely.Commits held s (s.setAgent agentId (Agent.unbind claimCode true)) where
  inv := by
    refine h.less userId rfl (fun v => ?_) (fun v hv => ?_) fun hpos _ => ?_
    · have := (count_unbind claimCode true v ha).1
      omega
    · have := (count_unbind claimCode true v ha).2
      simpa [hv] using this
    · obtain ⟨b, hb, hbound⟩ := List.countP_pos_iff.mp hpos
      have hbound := of_decide_eq_true hbound
      obtain ⟨r, hr, rfl⟩ := (Keyed.mem_modify (f := Agent.unbind claimCode true) fun _ => rfl).mp hb
      split at hbound
      · cases hbound.1
      · rename_i hid
        have hother : r ∈ s.otherAgents agentId userId := mem_otherAgents.mpr ⟨hr, hbound, hid⟩
        rw [List.argmin_eq_none.mp hnone] at hother
        cases hother
  since := rfl
  frame id hid := row_setAgent _ fun heq => hid (heq ▸ hheld)
  commits := userMoves_unbind claimCode true

theorem commits_unbind_next (h : Exclusive s) {next : Agent} (ha : s.ownAgent agentId userId = some a)
    (hdefault : a.isDefault = true) (hnext : s.nextDefault agentId userId = some next) (hheld : held agentId)
    (hheld' : held next.agentId) : rely.Commits held s
      ((s.setAgent agentId (Agent.unbind claimCode true)).setAgent next.agentId Agent.promote) where
  inv := by
    obtain ⟨hmem, hbound, hne⟩ := mem_otherAgents.mp (List.argmin_mem hnext)
    have hget : (s.setAgent agentId (Agent.unbind claimCode true)).agents.get? next.agentId = some next :=
      (row_setAgent _ hne).trans (Keyed.get?_key hmem)
    have hstill : ∀ v, (next.promote.BoundTo v ↔ v = userId) ∧ (next.promote.DefaultOf v ↔ v = userId) := by
      intro v
      have hiff : next.promote.BoundTo v ↔ v = userId := boundTo_iff (a := next.promote) hbound
      exact ⟨hiff, (and_iff_left rfl).trans hiff⟩
    have hsame : ∀ v, count (Agent.BoundTo v)
        ((s.setAgent agentId (Agent.unbind claimCode true)).setAgent next.agentId Agent.promote) =
          count (Agent.BoundTo v) (s.setAgent agentId (Agent.unbind claimCode true)) := by
      intro v
      have hcount := count_setAgent (q := Agent.BoundTo v) (f := Agent.promote) (fun _ => rfl) hget
      simp only [(hstill v).1, boundTo_iff hbound] at hcount
      exact Nat.add_right_cancel hcount
    refine h.less userId rfl (fun v => ?_) (fun v hv => ?_) fun _ hone => ?_
    · have := (count_unbind claimCode true v ha).1
      rw [hsame]
      omega
    · have hunbound := (count_unbind claimCode true v ha).2
      have hcount := count_setAgent (q := Agent.DefaultOf v) (f := Agent.promote) (fun _ => rfl) hget
      have hnot : ¬ next.DefaultOf v := fun hd => hv ((boundTo_iff hbound).mp hd.1)
      simp only [(hstill v).2, hv, hnot, false_and, if_false, Nat.add_zero] at hcount hunbound
      exact hcount.trans hunbound
    · have hunbound := (count_unbind claimCode true userId ha).2
      have hcount := count_setAgent (q := Agent.DefaultOf userId) (f := Agent.promote)
        (fun _ => rfl) hget
      have hnot : ¬ next.DefaultOf userId := by
        intro hd
        have hpos : 0 < count (Agent.DefaultOf userId) (s.setAgent agentId (Agent.unbind claimCode true)) :=
          List.countP_pos_iff.mpr ⟨next, (Keyed.get?_eq_some_iff.mp hget).1, decide_eq_true hd⟩
        simp only [hdefault, true_and, if_true] at hunbound
        omega
      simp only [(hstill userId).2, hnot, if_true, if_false, hdefault, true_and] at hcount hunbound
      omega
  since := rfl
  frame id hid := by
    have hfirst : id ≠ agentId := fun heq => hid (heq ▸ hheld)
    have hsecond : id ≠ next.agentId := fun heq => hid (heq ▸ hheld')
    exact (row_setAgent _ hsecond).trans (row_setAgent _ hfirst)
  commits := by
    intro b hb
    have hunbind : UserMoves s (s.setAgent agentId (Agent.unbind claimCode true)) := userMoves_unbind claimCode true
    obtain ⟨c, hc, hid, hmoves⟩ := hunbind b hb
    refine ⟨_, Keyed.mem_modify_of_mem (p := (·.agentId = next.agentId)) (f := Agent.promote) (fun _ => rfl) hc, ?_⟩
    split <;> exact ⟨hid, hmoves⟩

end Unbind

section MakeDefault

variable {others : List AgentId}

def Agent.chosen (others : List AgentId) (agentId : AgentId) (r : Agent) : Agent :=
  { r with isDefault := if r.agentId = agentId then true else if r.agentId ∈ others then false else r.isDefault }

theorem rows_makeDefault (ha : s.ownAgent agentId userId = some a)
    (hothers : (s.otherAgents agentId userId).map (·.agentId) = others) :
    ((s.clearDefaults others).setAgent agentId (Agent.keepDefault a.isDefault)).agents.rows =
      s.agents.rows.map (Agent.chosen others agentId) := by
  obtain ⟨hget, -⟩ := ownAgent_eq_some ha
  obtain ⟨hmem, hid⟩ := Keyed.get?_eq_some_iff.mp hget
  have hnot : agentId ∉ others := by
    rw [← hothers]
    intro hin
    obtain ⟨b, hb, hbid⟩ := List.mem_map.mp hin
    exact (mem_otherAgents.mp hb).2.2 hbid
  show Table.update _ _ (Table.update _ _ s.agents.rows) = _
  unfold Table.update
  rw [List.map_map]
  refine List.map_congr_left fun r hr => ?_
  simp only [Function.comp_apply, Agent.chosen]
  by_cases hsame : r.agentId = agentId
  · cases Keyed.eq_of_key hr hmem (hsame.trans hid.symm)
    cases hdefault : a.isDefault <;> simp [hid, hnot, Agent.keepDefault, hdefault]
  · by_cases hin : r.agentId ∈ others
    · simp [hsame, hin]
    · simp [hsame, hin]

theorem commits_makeDefault (h : Exclusive s) (ha : s.ownAgent agentId userId = some a)
    (hothers : (s.otherAgents agentId userId).map (·.agentId) = others) (hheld : held agentId)
    (hheld' : ∀ id ∈ others, held id) :
    rely.Commits held s ((s.clearDefaults others).setAgent agentId (Agent.keepDefault a.isDefault)) := by
  obtain ⟨hget, hbound⟩ := ownAgent_eq_some ha
  obtain ⟨hmem, hid⟩ := Keyed.get?_eq_some_iff.mp hget
  have hrows := rows_makeDefault ha hothers
  have hcount : ∀ {q : Agent → Prop} [DecidablePred q],
      count q ((s.clearDefaults others).setAgent agentId (Agent.keepDefault a.isDefault)) =
        s.agents.rows.countP fun r => q (r.chosen others agentId) := by
    intro q _
    unfold count
    rw [hrows, List.countP_map]
    rfl
  have hin : ∀ r ∈ s.agents, r.agentId ∈ others ↔ r.BoundTo userId ∧ r.agentId ≠ agentId := by
    intro r hr
    rw [← hothers, List.mem_map]
    constructor
    · rintro ⟨b, hb, hbid⟩
      obtain ⟨hb, hrest⟩ := mem_otherAgents.mp hb
      rwa [Keyed.eq_of_key hr hb hbid.symm]
    · exact fun hrest => ⟨r, mem_otherAgents.mpr ⟨hr, hrest⟩, rfl⟩
  refine ⟨h.less userId rfl (fun v => ?_) (fun v hv => ?_) fun _ _ => ?_, rfl, fun id hnot => ?_, fun r hr => ?_⟩
  · rw [hcount]
    exact Nat.le_refl _
  · rw [hcount]
    refine List.countP_congr fun r hr => ?_
    simp only [decide_eq_true_eq]
    have hother : r.BoundTo v → r.chosen others agentId = r := by
      intro hrv
      have hnot : ¬ r.BoundTo userId := fun hru => hv ((boundTo_iff hru).mp hrv)
      have hne : r.agentId ≠ agentId := by
        intro hsame
        rw [Keyed.eq_of_key hr hmem (hsame.trans hid.symm)] at hnot
        exact hnot hbound
      have hout : r.agentId ∉ others := fun hmem => hnot ((hin r hr).mp hmem).1
      simp [Agent.chosen, hne, hout]
    constructor
    · intro hd
      exact hother hd.1 ▸ hd
    · intro hd
      exact (hother hd.1).symm ▸ hd
  · rw [hcount]
    have hone : s.agents.rows.countP (fun r => r.agentId = agentId) = 1 := by
      have := List.count_eq_one_of_mem s.agents.distinct (List.mem_map_of_mem hmem)
      rw [hid, List.count, List.countP_map] at this
      rw [← this]
      exact List.countP_congr fun r _ => by simp
    rw [← hone]
    refine List.countP_congr fun r hr => ?_
    simp only [decide_eq_true_eq]
    constructor
    · rintro ⟨hru, hd⟩
      by_contra hne
      have hru : r.BoundTo userId := hru
      simp [Agent.chosen, hne, (hin r hr).mpr ⟨hru, hne⟩] at hd
    · intro hsame
      cases Keyed.eq_of_key hr hmem (hsame.trans hid.symm)
      exact ⟨hbound, if_pos hsame⟩
  · have hne : id ≠ agentId := fun heq => hnot (heq ▸ hheld)
    have hout : id ∉ others := fun hmem => hnot (hheld' id hmem)
    have hclear : (s.clearDefaults others).agents.get? id = (s.agents.get? id).map fun r =>
        if r.agentId ∈ others then { r with isDefault := false } else r := Keyed.get?_modify (fun _ => by rfl) id
    refine (row_setAgent _ hne).trans (hclear.trans ?_)
    show _ = s.agents.get? id
    cases hr : s.agents.get? id with
    | none => rfl
    | some r =>
      obtain ⟨-, hkey⟩ := Keyed.get?_eq_some_iff.mp hr
      rw [Option.map_some, if_neg (hkey ▸ hout)]
  · refine ⟨r.chosen others agentId, ?_, rfl, .inl rfl⟩
    rw [Keyed.mem_def, hrows]
    exact List.mem_map_of_mem hr

end MakeDefault

end Counting

section Statements

variable {held : AgentId → Prop} {s : Store} {userId : UserId} {agentId : AgentId}

theorem sound_quota {next : User → Bool → Call}
    (h : ∀ t user isFirst, rely.Later held s t → user ∈ t.users → user.id = userId →
      (next user isFirst).Sound rely held t) : (quota userId next).Sound rely held s := by
  refine .select fun t ht _ => ?_
  cases huser : t.users.get? userId with
  | none => trivial
  | some user =>
    obtain ⟨hmem, hid⟩ := Keyed.get?_eq_some_iff.mp huser
    refine .select fun u hu _ => .require fun _ => h u user _ (ht.trans hu) ?_ hid
    have husers : u.users = t.users := hu.since
    rwa [husers]

theorem sound_updateRow {next : Call}
    (h : ∀ t, rely.Later held s t → next.Sound rely (fun x => held x ∨ x = agentId) t) :
    (updateRow agentId next).Sound rely held s := by
  refine .lock (fun t _ _ hnone => ?_) fun t k ht _ hsome => ?_
  · rw [Option.map_eq_none_iff] at hnone
    simp only [hnone, Program.Sound]
  · obtain ⟨a, ha, rfl⟩ := Option.map_eq_some_iff.mp hsome
    simp only [ha]
    exact h t ht

theorem sound_conditionalUpdate {user : User} {isFirst : Bool} (huser : user ∈ s.users) :
    (conditionalUpdate agentId user isFirst).Sound rely held s := by
  refine .lock (fun t _ _ hnone => ?_) fun t k ht _ hsome => ?_
  · rw [Option.map_eq_none_iff] at hnone
    simp only [hnone, Program.Sound]
  · obtain ⟨a, ha, rfl⟩ := Option.map_eq_some_iff.mp hsome
    simp only [ha]
    obtain ⟨hget, hclaimable⟩ := Option.filter_eq_some_iff.mp ha
    refine .commit fun u hu hinv hread v hv => ?_
    cases hv
    have hrow : u.agents.get? agentId = some a := (hu.rows agentId (.inr rfl)).trans hget
    have husers : u.users = s.users := (rely.trans s t u ht.since hu.since)
    refine commits_bind (f := Agent.bind user.id isFirst) hinv (husers ▸ huser) (hread trivial) hrow
      (of_decide_eq_true hclaimable) ?_ (fun _ => rfl) rfl
    exact .inr rfl

theorem sound_updateOthers {next : List AgentId → Call} {agentIds updated : List AgentId}
    (hupdated : ∀ id ∈ updated, held id)
    (h : ∀ held' t updated', (∀ id ∈ updated', held' id) → (next updated').Sound rely held' t) :
    (updateOthers userId next agentIds updated).Sound rely held s := by
  induction agentIds generalizing held s updated with
  | nil => exact h held s updated hupdated
  | cons id rest ih =>
    refine .lock (fun t _ _ hnone => ?_) fun t k _ _ hsome => ?_
    · rw [Option.map_eq_none_iff] at hnone
      simp only [hnone, Option.isSome_none, Bool.false_eq_true, if_false]
      exact ih hupdated
    · obtain ⟨a, ha, rfl⟩ := Option.map_eq_some_iff.mp hsome
      simp only [ha, Option.isSome_some, if_true]
      refine ih fun x hx => ?_
      rcases List.mem_append.mp hx with hold | hnew
      · exact .inl (hupdated x hold)
      · exact .inr (List.mem_singleton.mp hnew)

variable (s)

theorem sound_claimResolve (userId : UserId) (claimCode : String) :
    (claimResolve userId claimCode).Sound rely (fun _ => False) s := by
  unfold claimResolve
  dsimp only
  refine .require fun _ => .select fun t _ _ => ?_
  split
  · trivial
  · rename_i agent hagent
    have hactive : agent.status = .active := by
      have := List.find?_some hagent
      simp only [decide_eq_true_eq] at this
      exact this.2
    refine .require fun hnone => sound_quota fun u user isFirst _ huser _ => sound_updateRow fun v hv => ?_
    refine .commit fun w hw hinv hread x hx => ?_
    cases hx
    obtain ⟨hrow, hquota⟩ := of_decide_eq_true (hread trivial)
    have husers : w.users = u.users := rely.trans u v w hv.since hw.since
    refine commits_bind (f := Agent.claim user.id agent.isDefault isFirst) hinv (husers ▸ huser) hquota hrow
      ⟨hnone, hactive⟩ ?_ (fun _ => rfl) ?_
    · exact .inr rfl
    · by_cases hsame : agent.isDefault = isFirst <;> simp [Agent.bind, Agent.claim, hsame]

theorem sound_bindAgentToUser (userId : UserId) (agentId : AgentId) (claimCode : String) (createdAt : ℕ) :
    (bindAgentToUser userId agentId claimCode createdAt).Sound rely (fun _ => False) s := by
  refine sound_quota fun t user isFirst _ huser _ => .select fun u hu _ => ?_
  have husers : u.users = t.users := hu.since
  split
  · exact .require fun _ => .require fun _ => sound_conditionalUpdate (husers ▸ huser)
  · refine .lock (fun v hv _ hnone => ?_) fun v k hv _ hsome => ?_
    · have hvusers : v.users = t.users := rely.trans t u v hu.since hv.since
      split
      · rename_i hget
        rw [if_pos hget] at hnone
        cases hnone
      · refine .select fun w hw _ => ?_
        have hwusers : w.users = v.users := hw.since
        split
        · trivial
        · exact .require fun _ => sound_conditionalUpdate (hwusers ▸ hvusers ▸ huser)
    · obtain ⟨hget, hk⟩ := Option.ite_none_right_eq_some.mp hsome
      cases hk
      simp only [hget]
      refine .commit fun w hw hinv hread x hx => ?_
      have hwusers : w.users = t.users := rely.trans t v w (rely.trans t u v hu.since hv.since) hw.since
      exact commits_insertAgent hinv (.inr rfl) hx (.inr ⟨user, hwusers ▸ huser, ⟨rfl, rfl⟩, hread trivial⟩)

theorem sound_unbindAgentFromUser (agentId : AgentId) (userId : UserId) (forbidden : Bool) (claimCode : String) :
    (unbindAgentFromUser agentId userId forbidden claimCode).Sound rely (fun _ => False) s := by
  refine .select fun t _ _ => ?_
  split
  · trivial
  · rename_i agent _
    refine .require fun _ => sound_updateRow fun u _ => ?_
    split
    · rename_i hdefault
      refine .select fun v _ _ => ?_
      split
      · refine .commit fun w _ hinv hread x hx => ?_
        cases hx
        obtain ⟨hown, hnone⟩ := of_decide_eq_true (hread trivial)
        exact commits_unbind_last claimCode hinv hown hnone (.inr rfl)
      · refine sound_updateRow fun _ _ => .commit fun w _ hinv hread x hx => ?_
        cases hx
        obtain ⟨hown, hnext⟩ := of_decide_eq_true (hread trivial)
        exact commits_unbind_next claimCode hinv hown hdefault hnext (.inl (.inr rfl)) (.inr rfl)
    · rename_i hdefault
      refine .commit fun w _ hinv hread x hx => ?_
      cases hx
      exact commits_unbind claimCode false hinv (of_decide_eq_true (hread trivial)) (Bool.eq_false_iff.mpr hdefault) (.inr rfl)

theorem sound_makeDefault (agentId : AgentId) (userId : UserId) :
    (makeDefault agentId userId).Sound rely (fun _ => False) s := by
  refine .select fun t _ _ => ?_
  split
  · trivial
  · refine .select fun u _ _ => sound_updateOthers (fun _ hmem => by cases hmem) fun held' v updated hheld => ?_
    refine sound_updateRow fun _ _ => .commit fun w _ hinv hread x hx => ?_
    cases hx
    obtain ⟨hown, hothers⟩ := of_decide_eq_true (hread trivial)
    exact commits_makeDefault hinv hown hothers (.inr rfl) fun id hid => .inl (hheld id hid)

theorem sound_registerAgent (agentId : AgentId) (claimCode : String) (createdAt : ℕ) :
    (registerAgent agentId claimCode createdAt).Sound rely (fun _ => False) s := by
  refine .lock (fun t _ _ hnone => ?_) fun t k _ _ hsome => ?_
  · split
    · rename_i hget
      rw [if_pos hget] at hnone
      cases hnone
    · trivial
  · obtain ⟨hget, hk⟩ := Option.ite_none_right_eq_some.mp hsome
    cases hk
    simp only [hget]
    exact .commit fun u _ hinv _ x hx => commits_insertAgent hinv (.inr rfl) hx (.inl rfl)

theorem sound_program (request : Request) : (request.program s).Sound rely (fun _ => False) s := by
  cases request with
  | claimResolve userId claimCode => exact sound_claimResolve s userId claimCode
  | bindAgentToUser userId agentId claimCode createdAt => exact sound_bindAgentToUser s userId agentId claimCode createdAt
  | unbindAgentFromUser agentId userId forbidden claimCode =>
    exact sound_unbindAgentFromUser s agentId userId forbidden claimCode
  | makeDefault agentId userId => exact sound_makeDefault s agentId userId
  | registerAgent agentId claimCode createdAt => exact sound_registerAgent s agentId claimCode createdAt

end Statements

/-- In every run in which each commit finds what its call has read, every user keeps to its quota and has one default agent if it has any, and every step moves an agent from no user or to none. -/
theorem binding_exclusive {start : Store} (hstart : Exclusive start) {actions : List (CallAction Request Empty)}
    {d : Calls Store AgentId} (hmeets : bindings.Meets Calls.AsRead { committed := start } actions)
    (hrun : bindings.run { committed := start } actions = some d) :
    Exclusive d.committed ∧
      ∀ a d', d.AsRead a → bindings.step d a = some d' → UserMoves d.committed d'.committed := by
  have hstep : ∀ d a d', Calls.Kept rely d → d.AsRead a → bindings.step d a = some d' →
      Calls.Kept rely d' ∧ Calls.Moved rely (fun (event : Empty) _ => event.elim) d.committed d'.committed :=
    fun _ _ _ hkept hread hstep => Calls.Kept.step (fun request s _ => sound_program s request)
      (fun event => event.elim) hkept (fun _ => hread) hstep
  have hkept := bindings.run_invariant_of_meets (fun d a d' hkept hread hnext => (hstep d a d' hkept hread hnext).1)
    (Calls.Kept.start (R := rely) hstart) hmeets hrun
  refine ⟨hkept.inv, fun a d' hread hnext => ?_⟩
  obtain ⟨-, hmoved⟩ := hstep d a d' hkept hread hnext
  generalize d'.committed = t at hmoved
  cases hmoved with
  | same => exact fun a ha => ⟨a, ha, rfl, .inl rfl⟩
  | commits hmoves => exact hmoves
  | outside event => exact event.elim

theorem users_distinct : ([{ id := 1, humanId := "hu_1", maxAgents := 2 }, { id := 2, humanId := "hu_2" }].map
    User.id).Nodup := by decide

theorem agents_distinct : ([{ agentId := "ag_1", claimCode := "clm_1" }, { agentId := "ag_2", claimCode := "clm_2" },
    { agentId := "ag_3", claimCode := "clm_3", createdAt := 1 }].map Agent.agentId).Nodup := by decide

def unclaimed : Store where
  users := { rows := _, distinct := users_distinct }
  agents := { rows := _, distinct := agents_distinct }

def claim (i : ℕ) (userId : UserId) (claimCode : String) : CallAction Request Empty :=
  .call i (.claimResolve userId claimCode)

/-- User 1 claims two agents, gives the first back and so gets a new default. -/
def claimedInTurn : List (CallAction Request Empty) :=
  claim 0 1 "clm_1" :: List.replicate 5 (.next 0) ++ claim 0 1 "clm_2" :: List.replicate 5 (.next 0) ++
    .call 0 (.unbindAgentFromUser "ag_1" 1 false "clm_4") :: List.replicate 5 (.next 0)

theorem binding_exclusive_in_turn : ∃ d, bindings.run { committed := unclaimed } claimedInTurn = some d ∧
    d.committed.agents.rows.map (fun a => (a.userId, a.isDefault)) = [(none, false), (some 1, true), (none, false)] ∧
    Exclusive d.committed := by
  have hmeets : bindings.Meets Calls.AsRead { committed := unclaimed } claimedInTurn := by decide +kernel
  have hrun : (bindings.run { committed := unclaimed } claimedInTurn).any (fun d =>
      d.committed.agents.rows.map (fun a => (a.userId, a.isDefault)) =
        [(none, false), (some 1, true), (none, false)]) = true := by decide +kernel
  have hstart : Exclusive unclaimed := by decide +kernel
  obtain ⟨d, hrun, hd⟩ := Option.any_eq_true _ _ |>.mp hrun
  exact ⟨d, hrun, of_decide_eq_true hd, (binding_exclusive hstart hmeets hrun).1⟩

/-- Two users claim one agent at once: both have read it as unclaimed before either commits. -/
def oneAgent : List (CallAction Request Empty) :=
  claim 1 1 "clm_1" :: List.replicate 3 (.next 1) ++ claim 2 2 "clm_1" :: List.replicate 3 (.next 2) ++
    List.replicate 2 (.next 1) ++ [.next 2]

def threeAgents : List (CallAction Request Empty) :=
  claim 1 1 "clm_1" :: List.replicate 3 (.next 1) ++ claim 2 1 "clm_2" :: List.replicate 3 (.next 2) ++
    claim 3 1 "clm_3" :: List.replicate 3 (.next 3) ++ List.replicate 2 (.next 1) ++ List.replicate 2 (.next 2) ++
    List.replicate 2 (.next 3)

/-- The second claim takes an agent from its user, and claims at once leave a user with more agents than its quota and as many defaults. -/
theorem claims_overlap : Exclusive unclaimed ∧
    (∃ d d', bindings.run { committed := unclaimed } oneAgent = some d ∧ bindings.step d (.next 2) = some d' ∧
      ¬ UserMoves d.committed d'.committed) ∧
    ∃ d, bindings.run { committed := unclaimed } threeAgents = some d ∧ (d.committed.boundAgents 1).length = 3 ∧
      d.committed.agents.rows.countP (Agent.DefaultOf 1 ·) = 3 ∧ ¬ Exclusive d.committed := by
  have htaken : (bindings.run { committed := unclaimed } oneAgent).any (fun d =>
      (bindings.step d (.next 2)).any (fun d' => ¬ UserMoves d.committed d'.committed)) = true := by decide +kernel
  have hmany : (bindings.run { committed := unclaimed } threeAgents).any (fun d =>
      (d.committed.boundAgents 1).length = 3 ∧ d.committed.agents.rows.countP (Agent.DefaultOf 1 ·) = 3 ∧
        ¬ Exclusive d.committed) = true := by decide +kernel
  obtain ⟨d, hd, hstep⟩ := Option.any_eq_true _ _ |>.mp htaken
  obtain ⟨d', hd', hmoves⟩ := Option.any_eq_true _ _ |>.mp hstep
  obtain ⟨e, he, hmany⟩ := Option.any_eq_true _ _ |>.mp hmany
  exact ⟨by decide +kernel, ⟨d, d', hd, hd', of_decide_eq_true hmoves⟩, e, he, of_decide_eq_true hmany⟩

end BotCord.Bindings
