import BotCord.Ingress.Runner

/-!
# One adapter for each gateway

The map of adapters and the providers of the orchestrator always change together, and an adapter is aborted before its entry is deleted. What goes wrong is that both are changed by gateway: a `stopOne` deletes whatever it finds after its `await`, and a `startOne` puts its adapter over whatever it finds.
-/

namespace BotCord.Ingress

namespace ProviderRunner

variable (r : ProviderRunner)

/-- An adapter of the gateway that was started and is not aborted. -/
def Live (id : GatewayId) (adapter : AdapterId) : Prop :=
  ∃ x, r.created[adapter]? = some x ∧ x.gatewayId = id ∧ x.started = true ∧ x.aborted = false

def Aborted (adapter : AdapterId) : Prop := ∃ x, r.created[adapter]? = some x ∧ x.aborted = true

/-- A `stopOne` waits for the adapter. -/
def Stopping (id : GatewayId) (adapter : AdapterId) : Prop := ∃ i, .stopOne id adapter ∈ r.calls i

/-- At most one adapter of a gateway runs, the map and the orchestrator name it and nothing else, apart from an adapter whose stop is being waited for. -/
structure OneAdapter : Prop where
  one : ∀ id a b, r.Live id a → r.Live id b → a = b
  registered : ∀ id, r.providers id = r.get? id
  named : ∀ id a, r.Live id a → r.get? id = some a
  nothing : ∀ id a, r.get? id = some a → r.Live id a ∨ r.Stopping id a

end ProviderRunner

/-- An adapter that is made is started: the row of its connection can be written where that is due. -/
def Outside.Starts (outside : Outside) (conn : GatewayConnection) : Prop :=
  outside.built = true → (outside.saved || !(conn.enabled && conn.status ≠ .active)) = true
deriving Decidable

/-- A `stopOne` finds the adapter that it has stopped or nothing, a `startOne` that goes on finds nothing, and no `stopOne` is called while a `startOne` of its gateway has still to register an adapter. -/
def Undisturbed (r : ProviderRunner) (s : RunnerStep) : Prop :=
  match (r.next s.call s.action).1 with
  | .start conn => r.get? conn.id = none → s.outside.Starts conn
  | .stop id => ∀ i conn, .startOne conn ∈ r.calls i → conn.id ≠ id
  | .unregister id adapter => ∀ found, r.get? id = some found → found = adapter
  | .register conn => s.outside.Starts conn ∧ r.get? conn.id = none
  | .pass => True

/-- The step calls `startOne` for the gateway. -/
def Starts (id : GatewayId) (r : ProviderRunner) (s : RunnerStep) : Prop :=
  ∃ conn, (r.next s.call s.action).1 = .start conn ∧ conn.id = id

/-- The step calls `stopOne` for the gateway, by itself or in a `stopAll`. -/
def Stops (id : GatewayId) (r : ProviderRunner) (s : RunnerStep) : Prop := (r.next s.call s.action).1 = .stop id

namespace ProviderRunner

variable {r r' : ProviderRunner} {i : ℕ} {id : GatewayId} {a b : AdapterId} {conn : GatewayConnection}
  {outside : Outside} {frames rest : List Frame}

@[simp] theorem goto_live : (r.goto i frames).Live = r.Live := rfl

@[simp] theorem goto_calls_self : (r.goto i frames).calls i = frames := Function.update_self ..

theorem goto_calls_of_ne {j : ℕ} (h : j ≠ i) : (r.goto i frames).calls j = r.calls j := Function.update_of_ne h ..

theorem getElem?_abort : (r.abort a).created[b]? =
    if a = b then r.created[b]?.map fun x => { x with aborted := true } else r.created[b]? := by
  rw [abort, List.getElem?_modify]
  split
  · rfl
  · exact Option.map_id'

theorem live_abort : (r.abort a).Live id b ↔ r.Live id b ∧ b ≠ a := by
  unfold Live
  rw [getElem?_abort]
  split
  · rename_i hab
    subst hab
    constructor
    · rintro ⟨x, hx, -, -, haborted⟩
      obtain ⟨y, -, rfl⟩ := Option.map_eq_some_iff.mp hx
      cases haborted
    · rintro ⟨-, hne⟩
      exact absurd rfl hne
  · rename_i hab
    exact ⟨fun h => ⟨h, Ne.symm hab⟩, And.left⟩

theorem Aborted.abort (h : r.Aborted b) : (r.abort a).Aborted b := by
  obtain ⟨x, hx, haborted⟩ := h
  unfold Aborted
  rw [getElem?_abort]
  split
  · exact ⟨_, Option.map_eq_some_iff.mpr ⟨x, hx, rfl⟩, rfl⟩
  · exact ⟨x, hx, haborted⟩

theorem aborted_abort (h : r.Live id a) : (r.abort a).Aborted a := by
  obtain ⟨x, hx, -⟩ := h
  exact ⟨_, (getElem?_abort.trans (if_pos rfl)).trans (Option.map_eq_some_iff.mpr ⟨x, hx, rfl⟩), rfl⟩

theorem Aborted.not_live (h : r.Aborted a) : ¬ r.Live id a := by
  obtain ⟨x, hx, haborted⟩ := h
  rintro ⟨y, hy, -, -, hrunning⟩
  cases hx.symm.trans hy
  rw [haborted] at hrunning
  cases hrunning

theorem get?_unregister (other : GatewayId) :
    (r.unregister id).get? other = if other = id then none else r.get? other := by
  rw [get?, get?, unregister, List.find?_filter]
  split
  · rename_i heq
    subst heq
    rw [List.find?_eq_none.mpr, Option.map_none]
    intro e _
    simp
  · rename_i hne
    refine congrArg _ (congrArg (List.find? · r.adapters) (funext fun e => ?_))
    by_cases he : e.gatewayId = other <;> simp [he, hne]

theorem register_eq_self (h : outside.built = false) : r.register conn outside = r := by
  rw [register, h]
  rfl

@[simp] theorem register_calls : (r.register conn outside).calls = r.calls := by
  unfold register
  split <;> rfl

theorem get?_register (h : outside.built = true) (other : GatewayId) :
    (r.register conn outside).get? other = if other = conn.id then some r.created.length else r.get? other := by
  rw [register, if_pos h, get?, get?]
  dsimp only
  split
  · rename_i heq
    subst heq
    exact congrArg (Option.map Entry.adapter) (Table.find?_put_self Entry.gatewayId ⟨conn.id, r.created.length⟩ r.adapters)
  · rename_i hne
    exact congrArg _ (Table.find?_put_of_ne hne)

theorem providers_register (h : outside.built = true) (other : GatewayId) :
    (r.register conn outside).providers other = if other = conn.id then some r.created.length else r.providers other := by
  rw [register, if_pos h]
  exact Function.update_apply ..

theorem getElem?_register (h : outside.built = true) : (r.register conn outside).created[b]? =
    if b = r.created.length then
      some ⟨conn.id, outside.saved || !(conn.enabled && conn.status ≠ .active), false⟩
    else r.created[b]? := by
  rw [register, if_pos h]
  dsimp only
  rw [List.getElem?_append]
  split
  · rename_i hlt
    rw [if_neg (Nat.ne_of_lt hlt)]
  · rename_i hge
    split
    · rename_i heq
      rw [heq, Nat.sub_self]
      rfl
    · rename_i hne
      have hlt : r.created.length < b := Nat.lt_of_le_of_ne (Nat.le_of_not_lt hge) (Ne.symm hne)
      rw [List.getElem?_eq_none (Nat.le_of_lt hlt), List.getElem?_eq_none (Nat.le_sub_of_add_le (Nat.add_comm _ _ ▸ hlt))]

theorem live_register (h : outside.built = true) (hstarts : outside.Starts conn) :
    (r.register conn outside).Live id b ↔ r.Live id b ∨ b = r.created.length ∧ id = conn.id := by
  unfold Live
  rw [getElem?_register h]
  split
  · rename_i hb
    subst hb
    have hnone : r.created[r.created.length]? = none := List.getElem?_eq_none (Nat.le_refl _)
    constructor
    · rintro ⟨x, hx, hid, -⟩
      cases hx
      exact .inr ⟨rfl, hid.symm⟩
    · rintro (⟨x, hx, -⟩ | ⟨-, hid⟩)
      · cases hnone.symm.trans hx
      · exact ⟨_, rfl, hid.symm, hstarts h, rfl⟩
  · rename_i hb
    exact ⟨.inl, fun hor => hor.resolve_right fun hnew => hb hnew.1⟩

theorem Aborted.register (h : r.Aborted b) : (r.register conn outside).Aborted b := by
  by_cases hbuilt : outside.built = true
  · obtain ⟨x, hx, haborted⟩ := h
    have hlt : b < r.created.length := (List.getElem?_eq_some_iff.mp hx).1
    exact ⟨x, (getElem?_register hbuilt).trans ((if_neg (Nat.ne_of_lt hlt)).trans hx), haborted⟩
  · rwa [register_eq_self (by simpa using hbuilt)]

end ProviderRunner

namespace Frame

variable {frames : List Frame} {f : Frame} {id : GatewayId} {a : AdapterId} {conn : GatewayConnection}

def IsLoop : Frame → Prop
  | .startAll _ | .stopAll _ => True
  | .stopOne _ _ | .startOne _ => False

theorem mem_of_mem_next (hf : f ∈ (next frames).2) (hloop : ¬ f.IsLoop) : f ∈ frames := by
  unfold next at hf
  split at hf
  · exact hf
  · exact List.mem_cons_of_mem _ hf
  · exact List.mem_cons_of_mem _ hf
  · exact List.mem_cons_of_mem _ hf
  · exact List.mem_cons_of_mem _ ((List.mem_cons.mp hf).resolve_left fun heq => hloop (heq ▸ trivial))
  · exact List.mem_cons_of_mem _ hf
  · exact List.mem_cons_of_mem _ ((List.mem_cons.mp hf).resolve_left fun heq => hloop (heq ▸ trivial))

/-- A call that waits for an adapter goes on waiting for it, or is the one that goes on now. -/
theorem mem_next_of_stopOne (hf : .stopOne id a ∈ frames) :
    .stopOne id a ∈ (next frames).2 ∨ (next frames).1 = .unregister id a := by
  unfold next
  split
  · exact .inl hf
  · obtain heq | hrest := List.mem_cons.mp hf
    · cases heq
      exact .inr rfl
    · exact .inl hrest
  · exact .inl ((List.mem_cons.mp hf).resolve_left nofun)
  · exact .inl ((List.mem_cons.mp hf).resolve_left nofun)
  · exact .inl (List.mem_cons_of_mem _ ((List.mem_cons.mp hf).resolve_left nofun))
  · exact .inl ((List.mem_cons.mp hf).resolve_left nofun)
  · exact .inl (List.mem_cons_of_mem _ ((List.mem_cons.mp hf).resolve_left nofun))

theorem mem_of_next_unregister (h : (next frames).1 = .unregister id a) : .stopOne id a ∈ frames := by
  unfold next at h
  split at h <;> cases h
  exact List.mem_cons_self

theorem mem_of_next_register (h : (next frames).1 = .register conn) : .startOne conn ∈ frames := by
  unfold next at h
  split at h <;> cases h
  exact List.mem_cons_self

end Frame

namespace ProviderRunner

variable {r r' : ProviderRunner} {i : ℕ} {id : GatewayId} {a b : AdapterId} {conn : GatewayConnection}
  {outside : Outside} {frames rest : List Frame} {s : RunnerStep} {op : Op}

structure Does (r : ProviderRunner) (s : RunnerStep) (op : Op) (rest : List Frame) : Prop where
  stays : ∀ id a, .stopOne id a ∈ r.calls s.call → .stopOne id a ∈ rest ∨ op = .unregister id a
  stops : ∀ id a, .stopOne id a ∈ rest → .stopOne id a ∈ r.calls s.call
  starts : ∀ conn, .startOne conn ∈ rest → .startOne conn ∈ r.calls s.call
  unregisters : ∀ id a, op = .unregister id a → .stopOne id a ∈ r.calls s.call
  registers : ∀ conn, op = .register conn → .startOne conn ∈ r.calls s.call

theorem does_of_frames (hframes : ∀ f, ¬ f.IsLoop → (f ∈ frames ↔ f ∈ r.calls s.call)) :
    Does r s (Frame.next frames).1 (Frame.next frames).2 where
  stays id a hf := Frame.mem_next_of_stopOne ((hframes (.stopOne id a) not_false).mpr hf)
  stops id a hf := (hframes (.stopOne id a) not_false).mp (Frame.mem_of_mem_next hf not_false)
  starts conn hf := (hframes (.startOne conn) not_false).mp (Frame.mem_of_mem_next hf not_false)
  unregisters id a hop := (hframes (.stopOne id a) not_false).mp (Frame.mem_of_next_unregister hop)
  registers conn hop := (hframes (.startOne conn) not_false).mp (Frame.mem_of_next_register hop)

theorem step_does (h : providerRunner.step r s = some r') : ∃ op rest, r.next s.call s.action = (op, rest) ∧
    Does r s op rest ∧ r' = r.perform s.call s.outside rest op := by
  simp only [providerRunner, Option.ite_none_right_eq_some, Option.some.injEq] at h
  obtain ⟨henabled, rfl⟩ := h
  refine ⟨_, _, rfl, ?_, rfl⟩
  have hbegins : s.action ≠ .resume → r.calls s.call = [] := henabled.mpr
  cases haction : s.action with
  | startOne conn =>
    have hnil := hbegins (by rw [haction]; nofun)
    exact ⟨by simp [hnil], by simp, by simp, by simp, by simp⟩
  | stopOne id =>
    have hnil := hbegins (by rw [haction]; nofun)
    exact ⟨by simp [hnil], by simp, by simp, by simp, by simp⟩
  | startAll connections =>
    have hnil := hbegins (by rw [haction]; nofun)
    refine does_of_frames fun f hf => ?_
    rw [hnil, List.mem_singleton]
    exact iff_of_false (fun heq => hf (heq ▸ trivial)) List.not_mem_nil
  | stopAll =>
    have hnil := hbegins (by rw [haction]; nofun)
    refine does_of_frames fun f hf => ?_
    rw [hnil, List.mem_singleton]
    exact iff_of_false (fun heq => hf (heq ▸ trivial)) List.not_mem_nil
  | resume => exact does_of_frames fun f _ => Iff.rfl

/-- The map and the orchestrator agree, a running adapter is named, what is named runs or is being stopped, and an adapter that is waited for is aborted. -/
structure Sound (r : ProviderRunner) : Prop where
  registered : ∀ id, r.providers id = r.get? id
  named : ∀ id a, r.Live id a → r.get? id = some a
  nothing : ∀ id a, r.get? id = some a → r.Live id a ∨ r.Stopping id a
  aborted : ∀ id a, r.Stopping id a → r.Aborted a

theorem Sound.goto (h : r.Sound) (hnew : ∀ id a, .stopOne id a ∈ frames → r.Aborted a)
    (hkept : ∀ id a, r.get? id = some a → .stopOne id a ∈ r.calls i → .stopOne id a ∈ frames) : (r.goto i frames).Sound where
  registered := h.registered
  named := h.named
  nothing id a ha := by
    refine (h.nothing id a ha).imp_right ?_
    rintro ⟨j, hj⟩
    by_cases hij : j = i
    · subst hij
      exact ⟨j, by rw [goto_calls_self]; exact hkept id a ha hj⟩
    · exact ⟨j, by rwa [goto_calls_of_ne hij]⟩
  aborted id a := by
    rintro ⟨j, hj⟩
    by_cases hij : j = i
    · subst hij
      rw [goto_calls_self] at hj
      exact hnew id a hj
    · rw [goto_calls_of_ne hij] at hj
      exact h.aborted id a ⟨j, hj⟩

theorem Sound.stopOne (h : r.Sound) (hstops : ∀ id a, .stopOne id a ∈ rest → .stopOne id a ∈ r.calls i)
    (hstays : ∀ id a, .stopOne id a ∈ r.calls i → .stopOne id a ∈ rest) : (r.stopOne i id rest).Sound := by
  unfold ProviderRunner.stopOne
  split
  · exact h.goto (fun id a hf => h.aborted id a ⟨i, hstops id a hf⟩) fun id a _ => hstays id a
  · rename_i a ha
    have haborted : (r.abort a).Aborted a := by
      obtain hlive | hstopping := h.nothing id a ha
      · exact aborted_abort hlive
      · exact (h.aborted id a hstopping).abort
    refine ⟨h.registered, fun id' b hb => h.named id' b (live_abort.mp hb).1, fun id' b hb => ?_, ?_⟩
    · by_cases hsame : id' = id
      · subst hsame
        cases ha.symm.trans hb
        exact .inr ⟨i, by simp⟩
      · rw [goto_live, live_abort]
        by_cases hba : b = a
        · subst hba
          -- the adapter is of one gateway only
          refine .inr ?_
          obtain hlive | hstopping := h.nothing id' b hb
          · obtain hlive' | ⟨j, hj⟩ := h.nothing id b ha
            · obtain ⟨x, hx, hid, -⟩ := hlive
              obtain ⟨y, hy, hid', -⟩ := hlive'
              cases hx.symm.trans hy
              exact absurd (hid.symm.trans hid') hsame
            · exact absurd hlive (h.aborted id b ⟨j, hj⟩).not_live
          · obtain ⟨j, hj⟩ := hstopping
            by_cases hij : j = i
            · subst hij
              exact ⟨j, by rw [goto_calls_self]; exact List.mem_cons_of_mem _ (hstays id' b hj)⟩
            · exact ⟨j, by rwa [goto_calls_of_ne hij]⟩
        · refine (h.nothing id' b hb).imp (fun hlive => ⟨hlive, hba⟩) ?_
          rintro ⟨j, hj⟩
          by_cases hij : j = i
          · subst hij
            exact ⟨j, by rw [goto_calls_self]; exact List.mem_cons_of_mem _ (hstays id' b hj)⟩
          · exact ⟨j, by rwa [goto_calls_of_ne hij]⟩
    · rintro id' b ⟨j, hj⟩
      by_cases hij : j = i
      · subst hij
        rw [goto_calls_self] at hj
        obtain heq | hrest := List.mem_cons.mp hj
        · cases heq
          exact haborted
        · exact (h.aborted id' b ⟨j, hstops id' b hrest⟩).abort
      · rw [goto_calls_of_ne hij] at hj
        exact (h.aborted id' b ⟨j, hj⟩).abort

theorem Sound.register (h : r.Sound) (hstarts : outside.Starts conn) (hnone : r.get? conn.id = none) :
    (r.register conn outside).Sound := by
  by_cases hbuilt : outside.built = true
  · refine ⟨fun id => ?_, fun id b hb => ?_, fun id b hb => ?_, ?_⟩
    · rw [providers_register hbuilt, get?_register hbuilt, h.registered]
    · rw [get?_register hbuilt]
      obtain hlive | ⟨rfl, rfl⟩ := (live_register hbuilt hstarts).mp hb
      · have hnamed := h.named id b hlive
        rw [if_neg, hnamed]
        rintro rfl
        cases hnone.symm.trans hnamed
      · exact if_pos rfl
    · rw [get?_register hbuilt] at hb
      split at hb
      · rename_i hid
        cases hb
        exact .inl ((live_register hbuilt hstarts).mpr (.inr ⟨rfl, hid⟩))
      · refine (h.nothing id b hb).imp (fun hlive => (live_register hbuilt hstarts).mpr (.inl hlive)) ?_
        rintro ⟨j, hj⟩
        exact ⟨j, by rwa [register_calls]⟩
    · rintro id b ⟨j, hj⟩
      rw [register_calls] at hj
      exact (h.aborted id b ⟨j, hj⟩).register
  · rwa [register_eq_self (by simpa using hbuilt)]

theorem Sound.unregister (h : r.Sound) (haborted : r.Aborted a) (hfound : ∀ found, r.get? id = some found → found = a) :
    (r.unregister id).Sound where
  registered other := by
    rw [get?_unregister]
    show Function.update r.providers id none other = _
    rw [Function.update_apply, h.registered]
  named other b hb := by
    have hnamed := h.named other b hb
    rw [get?_unregister, if_neg, hnamed]
    rintro rfl
    rw [hfound b hnamed] at hb
    exact haborted.not_live hb
  nothing other b hb := by
    rw [get?_unregister] at hb
    split at hb
    · cases hb
    · exact h.nothing other b hb
  aborted other b hb := h.aborted other b hb

theorem Sound.step (h : r.Sound) (hturn : Undisturbed r s) (hstep : providerRunner.step r s = some r') : r'.Sound := by
  obtain ⟨op, rest, hnext, hdoes, rfl⟩ := step_does hstep
  rw [Undisturbed, hnext] at hturn
  have hstays : (∀ id a, op ≠ .unregister id a) → ∀ id a, .stopOne id a ∈ r.calls s.call → .stopOne id a ∈ rest :=
    fun hop id a hf => (hdoes.stays id a hf).resolve_right (hop id a)
  have haborted : ∀ id a, .stopOne id a ∈ rest → r.Aborted a := fun id a hf => h.aborted id a ⟨_, hdoes.stops id a hf⟩
  cases op with
  | start conn =>
    simp only [perform, startOne]
    split
    · rename_i hnone
      refine (h.register (hturn hnone) hnone).goto (fun id a hf => (haborted id a hf).register) fun id a _ hf => ?_
      rw [register_calls] at hf
      exact hstays nofun id a hf
    · refine h.stopOne (fun id a hf => ?_) fun id a hf => List.mem_cons_of_mem _ (hstays nofun id a hf)
      exact hdoes.stops id a ((List.mem_cons.mp hf).resolve_left nofun)
  | stop id => exact h.stopOne hdoes.stops (hstays nofun)
  | unregister id a =>
    refine (h.unregister (h.aborted id a ⟨_, hdoes.unregisters id a rfl⟩) hturn).goto haborted fun other b hb hf => ?_
    refine (hdoes.stays other b hf).resolve_right fun heq => ?_
    cases heq
    rw [get?_unregister, if_pos rfl] at hb
    cases hb
  | register conn =>
    refine (h.register hturn.1 hturn.2).goto (fun id a hf => (haborted id a hf).register) fun id a _ hf => ?_
    rw [register_calls] at hf
    exact hstays nofun id a hf
  | pass => exact h.goto haborted fun id a _ => hstays nofun id a

theorem Sound.oneAdapter (h : r.Sound) : r.OneAdapter where
  one id _ _ ha hb := Option.some.inj ((h.named id _ ha).symm.trans (h.named id _ hb))
  registered := h.registered
  named := h.named
  nothing := h.nothing

theorem sound_start : ({} : ProviderRunner).Sound where
  registered _ := rfl
  named := by rintro id a ⟨x, hx, -⟩; cases hx
  nothing := nofun
  aborted := by rintro id a ⟨i, hi⟩; cases hi

theorem sound_run {actions : List RunnerStep} (hmeets : providerRunner.Meets Undisturbed {} actions)
    (hrun : providerRunner.run {} actions = some r) : r.Sound :=
  providerRunner.run_invariant_of_meets (fun _ _ _ h hturn hstep => h.step hturn hstep) sound_start hmeets hrun

structure Quiet (id : GatewayId) (r : ProviderRunner) : Prop where
  stopped : ∀ a, ¬ r.Live id a
  idle : ∀ i conn, .startOne conn ∈ r.calls i → conn.id ≠ id

theorem Quiet.goto (h : Quiet id r) (hstarts : ∀ conn, .startOne conn ∈ frames → conn.id ≠ id) :
    Quiet id (r.goto i frames) where
  stopped := h.stopped
  idle j conn hj := by
    by_cases hij : j = i
    · subst hij
      rw [goto_calls_self] at hj
      exact hstarts conn hj
    · rw [goto_calls_of_ne hij] at hj
      exact h.idle j conn hj

theorem Quiet.register (h : Quiet id r) (hne : conn.id ≠ id) (hstarts : outside.Starts conn) :
    Quiet id (r.register conn outside) := by
  by_cases hbuilt : outside.built = true
  · refine ⟨fun a ha => ?_, by rw [register_calls]; exact h.idle⟩
    obtain hlive | ⟨-, hid⟩ := (live_register hbuilt hstarts).mp ha
    · exact h.stopped a hlive
    · exact hne hid.symm
  · rwa [register_eq_self (by simpa using hbuilt)]

theorem Quiet.stopOne (h : Quiet id r) {other : GatewayId} (hstarts : ∀ conn, .startOne conn ∈ rest → conn.id ≠ id) :
    Quiet id (r.stopOne i other rest) := by
  unfold ProviderRunner.stopOne
  split
  · exact h.goto hstarts
  · rename_i a _
    have habort : Quiet id (r.abort a) := ⟨fun b hb => h.stopped b (live_abort.mp hb).1, h.idle⟩
    exact habort.goto fun conn hf => hstarts conn ((List.mem_cons.mp hf).resolve_left nofun)

theorem Quiet.step (h : Quiet id r) (hturn : Undisturbed r s) (hnot : ¬ Starts id r s)
    (hstep : providerRunner.step r s = some r') : Quiet id r' := by
  obtain ⟨op, rest, hnext, hdoes, rfl⟩ := step_does hstep
  rw [Undisturbed, hnext] at hturn
  have hstarts : ∀ conn, .startOne conn ∈ rest → conn.id ≠ id := fun conn hf => h.idle _ conn (hdoes.starts conn hf)
  cases op with
  | start conn =>
    have hne : conn.id ≠ id := fun hid => hnot ⟨conn, by rw [hnext], hid⟩
    simp only [perform, startOne]
    split
    · rename_i hnone
      exact (h.register hne (hturn hnone)).goto hstarts
    · refine h.stopOne fun other hf => ?_
      obtain heq | hrest := List.mem_cons.mp hf
      · cases heq
        exact hne
      · exact hstarts other hrest
  | stop other => exact h.stopOne hstarts
  | unregister other a =>
    have hunregister : Quiet id (r.unregister other) := ⟨h.stopped, h.idle⟩
    exact hunregister.goto hstarts
  | register conn => exact (h.register (h.idle _ conn (hdoes.registers conn rfl)) hturn.1).goto hstarts
  | pass => exact h.goto hstarts

theorem Sound.quiet (h : r.Sound) (hturn : Undisturbed r s) (hstop : Stops id r s)
    (hstep : providerRunner.step r s = some r') : Quiet id r' := by
  obtain ⟨op, rest, hnext, hdoes, rfl⟩ := step_does hstep
  rw [Undisturbed, hnext] at hturn
  rw [Stops, hnext] at hstop
  obtain rfl : op = .stop id := hstop
  have hstarts : ∀ conn, .startOne conn ∈ rest → conn.id ≠ id := fun conn hf => hturn _ conn (hdoes.starts conn hf)
  simp only [perform, ProviderRunner.stopOne]
  split
  · rename_i hnone
    have hquiet : Quiet id r := ⟨fun a ha => Option.some_ne_none a ((h.named id a ha).symm.trans hnone), hturn⟩
    exact hquiet.goto hstarts
  · rename_i a ha
    have hquiet : Quiet id (r.abort a) := by
      refine ⟨fun b hb => ?_, hturn⟩
      obtain ⟨hlive, hne⟩ := live_abort.mp hb
      exact hne (Option.some.inj ((h.named id b hlive).symm.trans ha))
    exact hquiet.goto fun conn hf => hstarts conn ((List.mem_cons.mp hf).resolve_left nofun)

theorem Quiet.run {actions : List RunnerStep} (h : Quiet id r) (hmeets : providerRunner.Meets Undisturbed r actions)
    (hnot : providerRunner.Meets (fun r s => ¬ Starts id r s) r actions) (hrun : providerRunner.run r actions = some r') :
    Quiet id r' := by
  induction actions generalizing r with
  | nil => exact Option.some.inj hrun ▸ h
  | cons s rest ih =>
    obtain ⟨next, hstep, hrest⟩ := providerRunner.run_cons_eq_some.mp hrun
    exact ih (h.step hmeets.1 hnot.1 hstep) (hmeets.2 next hstep) (hnot.2 next hstep) hrest

end ProviderRunner

open ProviderRunner

/-- In every run whose steps all meet the condition, at every moment at most one adapter of a gateway runs, named by the map and by the orchestrator; and from a `stopOne` on, until the next `startOne`, none does. -/
theorem one_adapter {r : ProviderRunner} {actions : List RunnerStep} (hmeets : providerRunner.Meets Undisturbed {} actions)
    (hrun : providerRunner.run {} actions = some r) :
    r.OneAdapter ∧ ∀ id before s after mid next, actions = before ++ s :: after →
      providerRunner.run {} before = some mid → providerRunner.step mid s = some next → Stops id mid s →
      providerRunner.Meets (fun r s => ¬ Starts id r s) next after → ∀ a, ¬ r.Live id a := by
  refine ⟨(sound_run hmeets hrun).oneAdapter, ?_⟩
  rintro id before s after mid next rfl hbefore hstep hstop hnot
  obtain ⟨hfirst, hlast⟩ := providerRunner.meets_append.mp hmeets
  obtain ⟨hturn, hafter⟩ := hlast mid hbefore
  have hquiet := (sound_run hfirst hbefore).quiet hturn hstop hstep
  rw [System.run_append, hbefore, Option.bind_some, System.run_cons, hstep, Option.bind_some] at hrun
  exact (hquiet.run (hafter next hstep) hnot hrun).stopped

def telegramBot : GatewayConnection := { id := "gw_telegram" }

/-- A gateway is started, started again and stopped, every call after the one before. -/
def restarted : List RunnerStep :=
  [⟨0, .startOne telegramBot, {}⟩, ⟨1, .startOne telegramBot, {}⟩, ⟨1, .resume, {}⟩, ⟨1, .resume, {}⟩,
    ⟨2, .stopOne "gw_telegram", {}⟩, ⟨2, .resume, {}⟩]

theorem undisturbed_restarted : providerRunner.Meets Undisturbed {} restarted := by
  refine ⟨fun _ _ => rfl, fun next hnext => ?_⟩
  cases hnext
  refine ⟨fun _ _ => rfl, fun next hnext => ?_⟩
  cases hnext
  refine ⟨fun found hfound => Option.some.inj (hfound.symm.trans (by decide)), fun next hnext => ?_⟩
  cases hnext
  refine ⟨⟨fun _ => rfl, by decide⟩, fun next hnext => ?_⟩
  cases hnext
  refine ⟨fun i conn hmem => ?_, fun next hnext => ?_⟩
  · -- both calls have returned
    have hidle : ∀ {frames : List Frame}, frames = [] → .startOne conn ∉ frames := by
      rintro _ rfl
      exact List.not_mem_nil
    refine absurd hmem (hidle ?_)
    match i with
    | 0 => rfl
    | 1 => rfl
    | i + 2 => rfl
  cases hnext
  refine ⟨fun found hfound => Option.some.inj (hfound.symm.trans (by decide)), fun next hnext => ?_⟩
  cases hnext
  trivial

theorem one_adapter_restarted : ∃ r, providerRunner.run {} restarted = some r ∧ r.OneAdapter ∧
    ∀ a, ¬ r.Live "gw_telegram" a := by
  have hsome : (providerRunner.run {} restarted).isSome := by decide +kernel
  obtain ⟨r, hrun⟩ := Option.isSome_iff_exists.mp hsome
  obtain ⟨hone, hstopped⟩ := one_adapter undisturbed_restarted hrun
  refine ⟨r, hrun, hone, ?_⟩
  refine hstopped "gw_telegram" (restarted.take 4) ⟨2, .stopOne "gw_telegram", {}⟩ [⟨2, .resume, {}⟩] _ _ rfl rfl rfl rfl
    ⟨?_, fun _ _ => trivial⟩
  rintro ⟨conn, hnext, -⟩
  cases hnext

/-- Two calls of `startOne` while the first adapter stops: the adapter of the second call is put over that of the first, which goes on without an entry. -/
theorem two_adapters : ¬ ∀ (r : ProviderRunner) (actions : List RunnerStep), providerRunner.run {} actions = some r →
    r.OneAdapter := by
  intro hclaim
  let actions : List RunnerStep :=
    [⟨0, .startOne telegramBot, {}⟩, ⟨1, .startOne telegramBot, {}⟩, ⟨2, .startOne telegramBot, {}⟩, ⟨1, .resume, {}⟩,
      ⟨2, .resume, {}⟩, ⟨1, .resume, {}⟩, ⟨2, .resume, {}⟩]
  have hcomputed : (providerRunner.run {} actions).map (fun r => (r.created[1]?, r.created[2]?)) =
      some (some ⟨"gw_telegram", true, false⟩, some ⟨"gw_telegram", true, false⟩) := by decide +kernel
  obtain ⟨r, hrun, hcreated⟩ := Option.map_eq_some_iff.mp hcomputed
  obtain ⟨hfirst, hsecond⟩ := Prod.mk.injEq .. ▸ hcreated
  have hone := (hclaim r actions hrun).one "gw_telegram" 1 2 ⟨_, hfirst, rfl, rfl, rfl⟩ ⟨_, hsecond, rfl, rfl, rfl⟩
  cases hone

end BotCord.Ingress
