import BotCord.Gateway.Frame

/-!
# Superseded turns

In a queue whose messages cancel the previous turn, at most one turn is live, and only the newest message starts one. A turn that a newer message aborts checks for it after its runtime and before its reply; between these checks and what follows them lie awaits, and an abort that falls into one of them comes too late.
-/

namespace BotCord.Gateway

namespace TurnRun

variable (policy : TurnPolicy)

/-- What is left of the turn stores a session or, without a text, sends an error. -/
def starts (result : RuntimeRunResult) (reply : TurnReply) : Bool :=
  result.newSessionId ≠ "" && !SessionTurn.authFailed policy.toSessionPolicy result ||
    reply.text = "" && SessionTurn.hasError policy.toSessionPolicy result

/-- At this await something is left after the last check that would store a session or send: the reports about a decision or the commit of a guest before the turn stores a session or sends an error, the write of its session before it sends an error, the report that it replies. -/
def exposedAt : TurnPhase → Bool
  | .deciding _ result decision => starts policy result (replyAfter decision)
  | .committing _ result reply => starts policy result reply
  | .persisting result reply => reply.text = "" && SessionTurn.hasError policy.toSessionPolicy result
  | .replying => true
  | _ => false

def exposed (t : TurnRun) : Bool := exposedAt policy t.phase

/-- A branch that starts nothing, and does not leave the turn exposed. -/
def Move.safe : Move → Bool
  | .await phase => !exposedAt policy phase
  | .store _ _ | .reportError | .conclude .failure | .conclude .report | .conclude .send => false
  | _ => true

/-- The turn has started nothing while silenced, and no longer can if it is. -/
structure Quiet (t : TurnRun) : Prop where
  effects : ∀ e ∈ t.effects, e.silenced = false
  exposed : t.silenced = true → t.exposed policy = false

variable {policy} {t next : TurnRun}

/-! ### The parts of a step -/

theorem quiet_close (h : ∀ e ∈ t.effects, e.silenced = false) : t.close.Quiet policy := ⟨h, fun _ => rfl⟩

theorem quiet_await {effect : Effect} {phase : TurnPhase} (h : ∀ e ∈ t.effects, e.silenced = false)
    (hloud : t.silenced = false) : (t.await effect phase).Quiet policy := by
  refine ⟨fun e he => ?_, fun hsilenced => absurd (hsilenced.symm.trans hloud) (by decide)⟩
  rcases List.mem_append.mp he with he | he
  · exact h e he
  · rw [List.mem_singleton.mp he]
    exact hloud

theorem quiet_take {m : Move} (h : ∀ e ∈ t.effects, e.silenced = false)
    (hsafe : t.silenced = true → m.safe policy = true) : (t.take m).Quiet policy := by
  have hloud : m.safe policy = false → t.silenced = false := fun hunsilent =>
    Bool.eq_false_iff.mpr fun hsilenced => absurd (hsafe hsilenced) (by rw [hunsilent]; decide)
  cases m with
  | await phase => exact ⟨h, fun hsilenced => (Bool.not_eq_true' _).mp (hsafe hsilenced)⟩
  | store result reply => exact quiet_await h (hloud rfl)
  | reportError =>
    rw [take, reportError, Turn.canDeliverRuntimeDiagnostics_eq, if_pos rfl]
    exact quiet_await (t := t.write .turnError) h (hloud rfl)
  | conclude conclusion =>
    cases conclusion with
    | failure =>
      rw [take, conclude, Turn.canDeliverRuntimeDiagnostics_eq, if_pos rfl]
      exact quiet_await (t := t.write .turnError) h (hloud rfl)
    | empty | gated | noReply => exact quiet_close (t := t.write .outbound) h
    | cancelled => exact quiet_close h
    | report => exact ⟨h, fun hsilenced => absurd (hsilenced.symm.trans (hloud rfl)) (by decide)⟩
    | send => exact quiet_await h (hloud rfl)
  | close => exact quiet_close h

theorem aborted_of_silenced (h : t.silenced = true) :
    t.aborted = true ∧ t.timedOut = false ∧ t.budgetExceeded = false := by
  simp only [silenced, Bool.and_eq_true, Bool.not_eq_true'] at h
  obtain ⟨⟨hsuperseded, htimedOut⟩, hbudget⟩ := h
  exact ⟨by rw [aborted, hsuperseded]; rfl, htimedOut, hbudget⟩

variable {result : RuntimeRunResult} {reply : TurnReply}

theorem safe_conclusion (hsilenced : t.silenced = true)
    (herror : (reply.text = "" && SessionTurn.hasError policy.toSessionPolicy result) = false) :
    Move.safe policy (.conclude (t.conclusion policy result reply)) = true := by
  obtain ⟨haborted, htimedOut, -⟩ := aborted_of_silenced hsilenced
  unfold conclusion
  rw [haborted, htimedOut]
  split
  · rename_i hempty
    rw [decide_eq_true hempty, Bool.true_and] at herror
    rw [herror, if_neg (by decide)]
    rfl
  · split
    · rfl
    · split
      · rfl
      · rfl

theorem safe_persist {resumed : Bool} (hsilenced : t.silenced = true)
    (hstarts : starts policy result reply = false) : (t.persist policy resumed result reply).safe policy = true := by
  obtain ⟨hstore, herror⟩ := Bool.or_eq_false_iff.mp hstarts
  unfold persist
  split
  · rw [Move.safe, exposedAt, herror]
    rfl
  · rename_i hwrite
    unfold sessionWrite at hwrite
    rw [hstore] at hwrite
    split at hwrite
    · cases hwrite
    · rw [if_neg (by decide)] at hwrite
      split at hwrite <;> cases hwrite
  · exact safe_conclusion hsilenced herror

theorem starts_withNote (note : Option String)
    (h : starts policy result reply = false) : starts policy result (withNote reply note) = false := by
  obtain ⟨hstore, herror⟩ := Bool.or_eq_false_iff.mp h
  refine Bool.or_eq_false_iff.mpr ⟨hstore, ?_⟩
  by_cases htext : reply.text = ""
  · rw [decide_eq_true htext, Bool.true_and] at herror
    rw [herror, Bool.and_false]
  · have hnote : (withNote reply note).text ≠ "" := by
      unfold withNote
      split
      · rename_i text hsome
        have htext' : text ≠ "" := by simpa using (Option.filter_eq_some_iff.mp hsome).2
        dsimp only
        split
        · exact fun happend => htext (String.append_eq_empty_iff.mp (String.append_eq_empty_iff.mp happend).1).1
        · exact htext'
      · exact htext
    rw [decide_eq_false hnote, Bool.false_and]

theorem safe_commit {resumed : Bool} (hsilenced : t.silenced = true)
    (hstarts : starts policy result reply = false) : (t.commit policy resumed result reply).safe policy = true := by
  unfold commit
  split
  · rw [Move.safe, exposedAt, hstarts]
    rfl
  · exact safe_persist hsilenced hstarts

theorem safe_move {event : TurnEvent} {m : Move} (hsilenced : t.silenced = true) (hexposed : t.exposed policy = false)
    (hmove : t.move policy event = some m) : m.safe policy = true := by
  unfold move at hmove
  split at hmove
  · split at hmove
    · obtain rfl := Option.some.inj hmove
      obtain ⟨haborted, htimedOut, hbudget⟩ := aborted_of_silenced hsilenced
      unfold complete
      rw [haborted, htimedOut, hbudget]
      rfl
    · cases hmove
  · split at hmove
    · rename_i hphase
      obtain rfl := Option.some.inj hmove
      rw [exposed, hphase] at hexposed
      split
      · exact safe_commit hsilenced hexposed
      · rfl
    · cases hmove
  · split at hmove
    · rename_i note _ _ _ _ hphase
      obtain rfl := Option.some.inj hmove
      rw [exposed, hphase] at hexposed
      exact safe_persist hsilenced (starts_withNote note hexposed)
    · cases hmove
  · split at hmove
    · rename_i hphase
      obtain rfl := Option.some.inj hmove
      rw [exposed, hphase] at hexposed
      exact safe_conclusion hsilenced hexposed
    · cases hmove
  · obtain ⟨hphase, -⟩ := Option.ite_some_none_eq_some.mp hmove
    rw [exposed, hphase] at hexposed
    cases hexposed
  · cases hmove

theorem quiet_step {event : TurnEvent} (h : t.Quiet policy) (hnext : t.step policy event = some next) :
    next.Quiet policy := by
  cases event with
  | prepared | failed | ran | closed =>
    obtain ⟨-, rfl⟩ := Option.ite_some_none_eq_some.mp hnext
    exact ⟨h.effects, fun _ => rfl⟩
  | timeout | budget =>
    obtain ⟨-, rfl⟩ := Option.ite_some_none_eq_some.mp hnext
    exact ⟨h.effects, fun hsilenced => by simp [silenced] at hsilenced⟩
  | errorSent =>
    obtain ⟨-, rfl⟩ := Option.ite_some_none_eq_some.mp hnext
    exact quiet_close h.effects
  | failureSent | sent =>
    obtain ⟨-, rfl⟩ := Option.ite_some_none_eq_some.mp hnext
    exact quiet_close (t := t.write .outbound) h.effects
  | completed | decided | committed | persisted | reported =>
    obtain ⟨m, hmove, rfl⟩ := Option.map_eq_some_iff.mp hnext
    exact quiet_take h.effects fun hsilenced => safe_move hsilenced (h.exposed hsilenced) hmove

theorem quiet_superseded (h : t.Quiet policy) (hsafe : t.budgetExceeded = false → t.exposed policy = false) :
    { t with superseded := true }.Quiet policy := by
  refine ⟨h.effects, fun hsilenced => hsafe ?_⟩
  rw [silenced] at hsilenced
  simp only [Bool.and_eq_true, Bool.not_eq_true'] at hsilenced
  exact hsilenced.2

end TurnRun

/-! ### One live turn -/

namespace Dispatcher

structure Single (s : Dispatcher) : Prop where
  entering : ∀ i p, s.phaseOf i = some p → p = .observing ∨ p = .reporting →
    ∃ o, s.originOf i = some o ∧ o.2.1 = .cancelPrevious
  live : ∀ k t, s.turns[k]? = some t → t.live = true → s.queue.current = some k
  buffer : s.queue.serialBuffer = []
  timers : s.queue.timers.map (·.id) = s.queue.park.toList
  idle : s.queue.timers ≠ [] → ∀ t ∈ s.turns, t.live = false
  waiting : ∀ i gen prev, s.phaseOf i = some (.cancelling gen prev) → gen ≤ s.queue.cancelGen ∧
    (gen = s.queue.cancelGen → s.queue.timers = [] ∧
      ∀ k t, s.turns[k]? = some t → t.live = true → k = prev ∧ t.superseded = true)
  unique : ∀ i j gen prev prev', s.phaseOf i = some (.cancelling gen prev) →
    s.phaseOf j = some (.cancelling gen prev') → i = j
  worker : s.queue.serialWorkerActive = true → ∃ i k t, s.phaseOf i = some (.working k) ∧ s.turns[k]? = some t
  overflow : ∀ i d, s.phaseOf i ≠ some (.overflowing d)
  joined : s.queue.joined = s.queue.cancelGen
  gens : ∀ t ∈ s.turns, ∀ gen ∈ t.gen, gen = t.since

variable {c : Composer} {policy : TurnPolicy} {s next : Dispatcher} {i : TurnId} {call : Call}

theorem Single.one (h : s.Single) {k l : ℕ} {t u : TurnRun} (hk : s.turns[k]? = some t) (hl : s.turns[l]? = some u)
    (ht : t.live = true) (hu : u.live = true) : k = l :=
  Option.some.inj ((h.live k t hk ht).symm.trans (h.live l u hl hu))

theorem Single.park_of_timers (h : s.Single) (htimers : s.queue.timers = []) : s.queue.park = none := by
  have hpark := h.timers
  rw [htimers] at hpark
  exact Option.toList_eq_nil_iff.mp hpark.symm

theorem Single.keep (h : s.Single) (hturns : next.turns = s.turns) (hqueue : next.queue = s.queue)
    (hentering : ∀ j p, next.phaseOf j = some p → p = .observing ∨ p = .reporting →
      ∃ o, next.originOf j = some o ∧ o.2.1 = .cancelPrevious)
    (hphase : ∀ j gen prev, next.phaseOf j = some (.cancelling gen prev) → s.phaseOf j = some (.cancelling gen prev))
    (hworking : ∀ j k, s.phaseOf j = some (.working k) → next.phaseOf j = some (.working k))
    (hoverflow : ∀ j d, next.phaseOf j = some (.overflowing d) → s.phaseOf j = some (.overflowing d)) : next.Single where
  entering := hentering
  live := by rw [hturns, hqueue]; exact h.live
  buffer := by rw [hqueue]; exact h.buffer
  timers := by rw [hqueue]; exact h.timers
  idle := by rw [hturns, hqueue]; exact h.idle
  waiting j gen prev hj := by rw [hturns, hqueue]; exact h.waiting j gen prev (hphase j gen prev hj)
  unique j j' gen prev prev' hj hj' := h.unique j j' gen prev prev' (hphase _ _ _ hj) (hphase _ _ _ hj')
  worker hactive := by
    rw [hqueue] at hactive
    obtain ⟨j, k, t, hj, ht⟩ := h.worker hactive
    exact ⟨j, k, t, hworking j k hj, by rw [hturns]; exact ht⟩
  overflow j d hj := h.overflow j d (hoverflow j d hj)
  joined := by rw [hqueue]; exact h.joined
  gens := by rw [hturns]; exact h.gens

theorem entering_of_ne (h : s.Single) (horigin : ∀ j, next.originOf j = s.originOf j)
    (hne : ∀ j, i ≠ j → next.phaseOf j = s.phaseOf j) (hself : ∀ p, next.phaseOf i = some p →
      p ≠ .observing ∧ (p = .reporting → s.phaseOf i = some .observing)) :
    ∀ j p, next.phaseOf j = some p → p = .observing ∨ p = .reporting →
      ∃ o, next.originOf j = some o ∧ o.2.1 = .cancelPrevious := by
  intro j p hp hentering
  rw [horigin]
  by_cases hij : i = j
  · subst hij
    rcases hentering with rfl | rfl
    · exact absurd rfl (hself _ hp).1
    · exact h.entering i .observing ((hself _ hp).2 rfl) (.inl rfl)
  · exact h.entering j p ((hne j hij).symm.trans hp) hentering

variable {t : TurnRun}

theorem Single.start (h : s.Single) (hnone : ∀ t ∈ s.turns, t.live = false)
    (hturns : next.turns = s.turns ++ [t]) (hcurrent : next.queue.current = some s.turns.length)
    (hbuffer : next.queue.serialBuffer = []) (htimers : next.queue.timers = []) (hpark : next.queue.park = none)
    (hcancelGen : next.queue.cancelGen = s.queue.cancelGen) (hjoined : next.queue.joined = s.queue.joined)
    (hentering : ∀ j p, next.phaseOf j = some p → p = .observing ∨ p = .reporting →
      ∃ o, next.originOf j = some o ∧ o.2.1 = .cancelPrevious)
    (hcancelling : ∀ j gen prev, next.phaseOf j = some (.cancelling gen prev) →
      s.phaseOf j = some (.cancelling gen prev) ∧ gen ≠ s.queue.cancelGen)
    (hworker : next.queue.serialWorkerActive = true →
      ∃ i k t, next.phaseOf i = some (.working k) ∧ next.turns[k]? = some t)
    (hoverflow : ∀ j d, next.phaseOf j ≠ some (.overflowing d)) (hgen : ∀ gen ∈ t.gen, gen = t.since) :
    next.Single where
  entering := hentering
  live k u hk hlive := by
    rw [hturns] at hk
    rcases Nat.lt_or_ge k s.turns.length with hlt | hge
    · rw [List.getElem?_append_left hlt] at hk
      exact absurd hlive (Bool.eq_false_iff.mp (hnone u (List.mem_of_getElem? hk)))
    · have hlt := (List.getElem?_eq_some_iff.mp hk).1
      rw [List.length_append, List.length_singleton] at hlt
      rw [hcurrent, show k = s.turns.length by omega]
  buffer := hbuffer
  timers := by rw [htimers, hpark]; rfl
  idle hset := absurd htimers hset
  waiting j gen prev hj := by
    obtain ⟨hj, hold⟩ := hcancelling j gen prev hj
    rw [hcancelGen]
    exact ⟨(h.waiting j gen prev hj).1, fun hnew => absurd hnew hold⟩
  unique j j' gen prev prev' hj hj' := h.unique j j' gen prev prev' (hcancelling _ _ _ hj).1 (hcancelling _ _ _ hj').1
  worker := hworker
  overflow := hoverflow
  joined := by rw [hjoined, hcancelGen]; exact h.joined
  gens u hu := by
    rw [hturns] at hu
    rcases List.mem_append.mp hu with hu | hu
    · exact h.gens u hu
    · rw [List.mem_singleton.mp hu]
      exact hgen

theorem single_run (h : s.Single) {gen : ℕ} {was : CallPhase} (hnone : ∀ t ∈ s.turns, t.live = false)
    (htimers : s.queue.timers = []) (hgen : gen = s.queue.joined) (hwas : s.phaseOf i = some was)
    (hworking : ∀ k, was ≠ .working k)
    (hwaiting : ∀ j prev, s.phaseOf j = some (.cancelling s.queue.cancelGen prev) → i = j) :
    (s.run i call gen).Single := by
  have hphase : (s.run i call gen).phaseOf i = some (.running s.turns.length) :=
    phaseOf_setPhase_self _ _ ((phaseOf_startTurn _ _ _).trans hwas)
  have hother : ∀ {j p}, (s.run i call gen).phaseOf j = some p → p ≠ .running s.turns.length →
      i ≠ j ∧ s.phaseOf j = some p := by
    intro j p hj hp
    have hij : i ≠ j := fun hij => hp (Option.some.inj (hj.symm.trans (hij ▸ hphase)))
    exact ⟨hij, (phaseOf_run_ne gen hij).symm.trans hj⟩
  refine h.start hnone (turns_run gen) ?_ ?_ ?_ ?_ ?_ ?_ ?_ (fun j gen' prev hj => ?_) (fun hactive => ?_)
    (fun j d hj => ?_) (fun gen' hgen' => ?_)
  · rw [queue_run]
    rfl
  · rw [queue_run]
    exact h.buffer
  · rw [queue_run]
    exact htimers
  · rw [queue_run]
    exact h.park_of_timers htimers
  · rw [queue_run]
    rfl
  · rw [queue_run]
    rfl
  · refine entering_of_ne h (fun j => originOf_of_core (coreOf_run gen)) (fun j hij => phaseOf_run_ne gen hij) fun p hp => ?_
    rw [← Option.some.inj (hphase.symm.trans hp)]
    exact ⟨by simp, fun hreporting => by cases hreporting⟩
  · obtain ⟨hij, hj⟩ := hother hj (by simp)
    exact ⟨hj, fun heq => hij (hwaiting j prev (heq ▸ hj))⟩
  · rw [queue_run] at hactive
    obtain ⟨j, k, t, hj, ht⟩ := h.worker hactive
    have hij : i ≠ j := fun hij => hworking k (Option.some.inj (hwas.symm.trans (hij ▸ hj)))
    refine ⟨j, k, t, (phaseOf_run_ne gen hij).trans hj, ?_⟩
    rw [turns_run, List.getElem?_append_left (List.getElem?_eq_some_iff.mp ht).1, ht]
  · exact h.overflow j d (hother hj (by simp)).2
  · rw [← Option.some.inj hgen']
    exact hgen

theorem single_supersede (h : s.Single) : (s.setQueue s.queue.supersede).Single where
  entering := h.entering
  live k t hk hlive := (QueueState.supersedePendingPark_current _).trans (h.live k t hk hlive)
  buffer := (QueueState.supersedePendingPark_serialBuffer _).trans h.buffer
  timers := by
    have htimers := QueueState.supersedePendingPark_timers h.timers
    simp [QueueState.supersede, htimers]
  idle hset := absurd (QueueState.supersedePendingPark_timers h.timers) hset
  waiting j gen prev hj := by
    have hle := (h.waiting j gen prev hj).1
    refine ⟨Nat.le_succ_of_le hle, fun heq => ?_⟩
    rw [queue_setQueue] at heq
    have hnew : gen = s.queue.cancelGen + 1 := heq
    omega
  unique := h.unique
  worker hactive := h.worker ((QueueState.supersedePendingPark_serialWorkerActive _).symm.trans hactive)
  overflow := h.overflow
  joined := congrArg (· + 1) h.joined
  gens := h.gens

theorem turns_cancel {prev k : ℕ} {phase : CallPhase}
    (hk : (((s.setQueue s.queue.supersede).abort prev).setPhase i phase).turns[k]? = some t) :
    ∃ u, s.turns[k]? = some u ∧ t.live = u.live ∧ t.gen = u.gen ∧ t.since = u.since ∧
      (k = prev → t.superseded = true) := by
  rw [turns_setPhase, turns_abort, turns_setQueue, List.getElem?_modify] at hk
  obtain ⟨u, hu, rfl⟩ := Option.map_eq_some_iff.mp hk
  refine ⟨u, hu, ?_⟩
  split
  · exact ⟨rfl, rfl, rfl, fun _ => rfl⟩
  · rename_i hne
    exact ⟨rfl, rfl, rfl, fun hkp => absurd hkp.symm hne⟩

theorem single_cancel (h : s.Single) {prev : ℕ} {was : CallPhase} (hcurrent : s.queue.current = some prev)
    (hwas : s.phaseOf i = some was) (hworking : ∀ k, was ≠ .working k) :
    (((s.setQueue s.queue.supersede).abort prev).setPhase i
      (.cancelling s.queue.supersede.cancelGen prev)).Single := by
  have hsuper := single_supersede h
  have habort : ((s.setQueue s.queue.supersede).abort prev).phaseOf i = some was := (phaseOf_abort _).trans hwas
  have hself := phaseOf_setPhase_self _ (.cancelling s.queue.supersede.cancelGen prev) habort
  have hother : ∀ j, i ≠ j → (((s.setQueue s.queue.supersede).abort prev).setPhase i
      (.cancelling s.queue.supersede.cancelGen prev)).phaseOf j = s.phaseOf j := by
    intro j hij
    rw [phaseOf_setPhase_ne _ _ hij, phaseOf_abort, phaseOf_setQueue]
  have hqueue : (((s.setQueue s.queue.supersede).abort prev).setPhase i
      (.cancelling s.queue.supersede.cancelGen prev)).queue = s.queue.supersede := by
    rw [queue_setPhase, queue_abort, queue_setQueue]
  -- whoever else waits has been overtaken
  have hovertaken : ∀ {j gen prev'}, i ≠ j → (((s.setQueue s.queue.supersede).abort prev).setPhase i
      (.cancelling s.queue.supersede.cancelGen prev)).phaseOf j = some (.cancelling gen prev') →
      gen ≤ s.queue.cancelGen ∧ s.phaseOf j = some (.cancelling gen prev') := by
    intro j gen prev' hij hj
    rw [hother j hij] at hj
    exact ⟨(h.waiting j gen prev' hj).1, hj⟩
  have hsucc : s.queue.supersede.cancelGen = s.queue.cancelGen + 1 := rfl
  refine {
    entering := ?_, live := fun k t hk hlive => ?_, buffer := ?_, timers := ?_, idle := fun hset => ?_,
    waiting := fun j gen prev' hj => ?_, unique := fun j j' gen prev₁ prev₂ hj hj' => ?_,
    worker := fun hactive => ?_, overflow := fun j d hj => ?_, joined := ?_, gens := fun t ht => ?_ }
  · refine entering_of_ne h (fun j => ?_) hother fun p hp => ?_
    · exact originOf_of_core (by rw [coreOf_setPhase, coreOf_abort, coreOf_setQueue])
    · rw [← Option.some.inj (hself.symm.trans hp)]
      exact ⟨by simp, fun hreporting => by cases hreporting⟩
  · obtain ⟨u, hu, hsame, -⟩ := turns_cancel hk
    rw [hqueue]
    exact hsuper.live k u hu (hsame.symm.trans hlive)
  · rw [hqueue]
    exact hsuper.buffer
  · rw [hqueue]
    exact hsuper.timers
  · rw [hqueue] at hset
    exact absurd (QueueState.supersedePendingPark_timers h.timers) hset
  · rw [hqueue]
    by_cases hij : i = j
    · subst hij
      obtain ⟨rfl, rfl⟩ := CallPhase.cancelling.inj (Option.some.inj (hself.symm.trans hj))
      refine ⟨Nat.le_refl _, fun _ => ⟨QueueState.supersedePendingPark_timers h.timers, fun k t hk hlive => ?_⟩⟩
      obtain ⟨u, hu, hsame, -, -, hsuperseded⟩ := turns_cancel hk
      have hkp : k = prev := Option.some.inj ((h.live k u hu (hsame.symm.trans hlive)).symm.trans hcurrent)
      exact ⟨hkp, hsuperseded hkp⟩
    · have hle := (hovertaken hij hj).1
      exact ⟨by omega, fun hnew => by omega⟩
  · by_cases hij : i = j
    · by_cases hij' : i = j'
      · exact hij.symm.trans hij'
      · subst hij
        obtain ⟨rfl, rfl⟩ := CallPhase.cancelling.inj (Option.some.inj (hself.symm.trans hj))
        have hle := (hovertaken hij' hj').1
        omega
    · by_cases hij' : i = j'
      · subst hij'
        obtain ⟨rfl, rfl⟩ := CallPhase.cancelling.inj (Option.some.inj (hself.symm.trans hj'))
        have hle := (hovertaken hij hj).1
        omega
      · exact h.unique j j' gen prev₁ prev₂ (hovertaken hij hj).2 (hovertaken hij' hj').2
  · rw [hqueue] at hactive
    obtain ⟨j, k, t, hj, ht⟩ := hsuper.worker hactive
    have hij : i ≠ j := fun hij => hworking k (Option.some.inj (hwas.symm.trans (hij ▸ hj)))
    have hlt := (List.getElem?_eq_some_iff.mp ht).1
    refine ⟨j, k, _, (hother j hij).trans hj, List.getElem?_eq_getElem ?_⟩
    rwa [turns_setPhase, turns_abort, List.length_modify]
  · by_cases hij : i = j
    · subst hij
      cases Option.some.inj (hself.symm.trans hj)
    · exact h.overflow j d ((hother j hij).symm.trans hj)
  · rw [hqueue]
    exact hsuper.joined
  · obtain ⟨k, hk⟩ := List.mem_iff_getElem?.mp ht
    obtain ⟨u, hu, -, hgen, hsince, -⟩ := turns_cancel hk
    rw [hgen, hsince]
    exact h.gens u (List.mem_of_getElem? hu)

theorem single_runCancelPrevious (h : s.Single) (hget : s.calls[i]? = some call)
    (hphase : call.phase = .observing ∨ call.phase = .reporting) : (s.runCancelPrevious i call).Single := by
  have hwas := phaseOf_eq_some hget
  have hworking : ∀ k, call.phase ≠ .working k := fun k hk => by
    rw [hk] at hphase
    rcases hphase with hp | hp <;> cases hp
  unfold runCancelPrevious
  split
  · rename_i hcurrent
    refine single_run (single_supersede h) (fun t ht => ?_) (QueueState.supersedePendingPark_timers h.timers)
      (congrArg (· + 1) h.joined.symm) hwas hworking fun j prev hj => ?_
    · obtain ⟨k, hk⟩ := List.mem_iff_getElem?.mp ht
      by_contra hlive
      rw [Bool.not_eq_false] at hlive
      exact absurd ((h.live k t hk hlive).symm.trans hcurrent) (by simp)
    · have hle : s.queue.cancelGen + 1 ≤ s.queue.cancelGen := (h.waiting j _ prev hj).1
      omega
  · rename_i prev hcurrent
    exact single_cancel h hcurrent hwas hworking

/-! ### Every step keeps it -/

theorem afterTurn_of_nil (h : s.Single) (hget : s.calls[i]? = some call) (k : ℕ) (t : TurnRun) (failed : Bool) :
    (s.afterTurn c i k t failed).phaseOf i = some .waiting ∧ (s.afterTurn c i k t failed).turns = s.turns ∧
      (s.afterTurn c i k t failed).queue = s.queue.setWorker false := by
  have hwas := phaseOf_eq_some hget
  unfold afterTurn
  split
  · refine ⟨phaseOf_setPhase_self _ _ (show _ = some call.phase from ?_), by simp, by simp⟩
    simp only [phaseOf_setQueue, phaseOf_settleAll]
    exact hwas
  · rw [work_of_nil (by simpa using h.buffer)]
    refine ⟨phaseOf_setPhase_self _ _ (show _ = some call.phase from ?_), by simp, by simp⟩
    simp only [phaseOf_setQueue, phaseOf_settleAll]
    exact hwas

theorem single_drain (h : s.Single) (hget : s.calls[i]? = some call) {k : ℕ} {failed : Bool} :
    (s.afterTurn c i k t failed).Single := by
  obtain ⟨hself, hturns, hqueue⟩ := afterTurn_of_nil (c := c) h hget k t failed
  have hother : ∀ {j p}, (s.afterTurn c i k t failed).phaseOf j = some p → p ≠ .waiting → s.phaseOf j = some p := by
    intro j p hj hp
    have hij : i ≠ j := fun hij => hp (Option.some.inj (hj.symm.trans (hij ▸ hself)))
    exact (phaseOf_afterTurn_ne hij).symm.trans hj
  exact {
    entering := entering_of_ne h (fun j => originOf_afterTurn) (fun j hij => phaseOf_afterTurn_ne hij) fun p hp => by
      rw [← Option.some.inj (hself.symm.trans hp)]
      exact ⟨by simp, fun hreporting => by cases hreporting⟩
    live := by rw [hturns, hqueue]; exact h.live
    buffer := by rw [hqueue]; rfl
    timers := by rw [hqueue]; exact h.timers
    idle := by rw [hturns, hqueue]; exact h.idle
    waiting := fun j gen prev hj => by
      rw [hturns, hqueue]
      exact h.waiting j gen prev (hother hj (by simp))
    unique := fun j j' gen prev prev' hj hj' =>
      h.unique j j' gen prev prev' (hother hj (by simp)) (hother hj' (by simp))
    worker := fun hactive => by rw [hqueue] at hactive; cases hactive
    overflow := fun j d hj => h.overflow j d (hother hj (by simp))
    joined := by rw [hqueue]; exact h.joined
    gens := by rw [hturns]; exact h.gens }

theorem not_live_of_turnEnd {k : ℕ} {failed : Bool} (hk : s.turns[k]? = some t)
    (hended : s.turnEnd k = some failed) : t.live = false := by
  obtain ⟨u, hu, hphase⟩ := turnEnd_eq_some hended
  obtain rfl := Option.some.inj (hk.symm.trans hu)
  rw [TurnRun.live, hphase]

theorem single_newest (h : s.Single) (hget : s.calls[i]? = some call) {prev : ℕ}
    (hphase : call.phase = .cancelling s.queue.cancelGen prev) (hended : s.turnEnd prev = some false) :
    (s.run i call s.queue.cancelGen).Single := by
  have hwas : s.phaseOf i = some (.cancelling s.queue.cancelGen prev) := by
    rw [phaseOf_eq_some hget, hphase]
  obtain ⟨htimers, hlive⟩ := (h.waiting i _ prev hwas).2 rfl
  refine single_run h (fun t ht => ?_) htimers h.joined.symm hwas (by simp) fun j prev' hj =>
    h.unique i j _ prev prev' hwas hj
  obtain ⟨k, hk⟩ := List.mem_iff_getElem?.mp ht
  by_contra hnot
  rw [Bool.not_eq_false] at hnot
  obtain ⟨rfl, -⟩ := hlive k t hk hnot
  rw [not_live_of_turnEnd hk hended] at hnot
  cases hnot

theorem mode_of_enters (h : s.Single) {event : CallEvent} (hget : s.calls[i]? = some call)
    (henters : enters call event = true) : call.mode = .cancelPrevious := by
  obtain ⟨o, ho, hmode⟩ := h.entering i call.phase (phaseOf_eq_some hget) (phase_of_enters henters)
  rw [originOf_eq_some hget] at ho
  obtain rfl := Option.some.inj ho
  exact hmode

theorem single_setPhase (h : s.Single) {phase : CallPhase} (hphase : next.phaseOf i = some phase)
    (hne : ∀ j, i ≠ j → next.phaseOf j = s.phaseOf j) (horigin : ∀ j, next.originOf j = s.originOf j)
    (hget : s.calls[i]? = some call) (hcalm : calm phase = true ∨ phase = .reporting ∧ call.phase = .observing)
    (hworking : ∀ k, call.phase ≠ .working k) (hturns : next.turns = s.turns) (hqueue : next.queue = s.queue) :
    next.Single := by
  have hother : ∀ {j p}, next.phaseOf j = some p → calm p = false → p ≠ .reporting → s.phaseOf j = some p := by
    intro j p hj hp hreporting
    by_cases hij : i = j
    · subst hij
      obtain rfl := Option.some.inj (hphase.symm.trans hj)
      rcases hcalm with hcalm | ⟨hcalm, -⟩
      · exact absurd (hp.symm.trans hcalm) (by decide)
      · exact absurd hcalm hreporting
    · exact (hne j hij).symm.trans hj
  refine h.keep hturns hqueue (entering_of_ne h horigin hne fun p hp => ?_)
    (fun j gen prev hj => hother hj rfl (by simp)) (fun j k hj => ?_) fun j d hj => hother hj rfl (by simp)
  · obtain rfl := Option.some.inj (hphase.symm.trans hp)
    rcases hcalm with hcalm | ⟨rfl, hwas⟩
    · exact ⟨fun hp => absurd (hp ▸ hcalm) (by decide), fun hp => absurd (hp ▸ hcalm) (by decide)⟩
    · exact ⟨by simp, fun _ => by rw [phaseOf_eq_some hget, hwas]⟩
  · have hij : i ≠ j := fun hij => by
      subst hij
      exact hworking k (Option.some.inj ((phaseOf_eq_some hget).symm.trans hj))
    exact (hne j hij).trans hj

theorem single_callStep (h : s.Single) {event : CallEvent} (hget : s.calls[i]? = some call)
    (hstep : CallStep c s i call event next) : next.Single := by
  have hne := fun j (hij : i ≠ j) => hstep.phaseOf_ne (j := j) hij
  have horigin := fun j => hstep.originOf (j := j)
  have hwas := phaseOf_eq_some hget
  cases hstep with
  | move hgoes =>
    refine single_setPhase h (phaseOf_setPhase_self _ _ ((phaseOf_note _ _ _ _).trans hwas)) hne horigin hget
      hgoes.calm_or_reporting hgoes.ne_working ?_ ?_
    · rw [turns_setPhase, turns_note]
    · rw [queue_setPhase, queue_note]
  | defer hphase =>
    have hsame : ((s.write i .inbound).deferMultimodal call.dispatch).phaseOf i = some call.phase := by
      rw [phaseOf_deferMultimodal, phaseOf_write, hwas]
    refine single_setPhase h (phaseOf_setPhase_self _ _ hsame) hne horigin hget (.inl rfl) (by simp [hphase]) ?_ ?_
    · rw [turns_setPhase, turns_deferMultimodal, turns_write]
    · rw [queue_setPhase, queue_deferMultimodal, queue_write]
  | enter henters =>
    rw [enterQueue, mode_of_enters h hget henters]
    exact single_runCancelPrevious h hget (phase_of_enters henters)
  | overflow hphase => exact absurd (hphase ▸ hwas) (h.overflow i _)
  | drain => exact single_drain h hget
  | newest hphase hended => exact single_newest h hget hphase hended

theorem single_handled (h : s.Single) (hhandled : Handled s .cancelPrevious next) : next.Single := by
  cases hhandled with
  | skipped => exact h
  | @added _ call hphase hmode _ _ _ hturns hqueue _ hphases hcores =>
    have hother : ∀ {j p}, next.phaseOf j = some p → p ≠ .deferring → p ≠ .observing → s.phaseOf j = some p := by
      intro j p hj hdeferring hobserving
      rw [hphases] at hj
      split at hj
      · obtain rfl := Option.some.inj hj
        rcases hphase with hp | hp
        · exact absurd hp hdeferring
        · exact absurd hp hobserving
      · exact hj
    refine h.keep hturns hqueue (fun j p hp hentering => ?_) (fun j gen prev hj => hother hj (by simp) (by simp))
      (fun j k hj => ?_) fun j d hj => hother hj (by simp) (by simp)
    · by_cases hnew : j = s.calls.length
      · rw [originOf, hcores, if_pos hnew]
        exact ⟨_, rfl, hmode⟩
      · rw [originOf, hcores, if_neg hnew]
        rw [hphases, if_neg hnew] at hp
        exact h.entering j p hp hentering
    · have hnew : j ≠ s.calls.length := fun hnew => by
        rw [hnew, phaseOf_length] at hj
        cases hj
      rw [hphases, if_neg hnew, hj]

theorem single_turnStep (h : s.Single) {k : ℕ} {t u : TurnRun} {event : TurnEvent} {request : ParkRequest}
    (hk : s.turns[k]? = some t) (hu : t.step policy event = some u) :
    ((s.setTurn k u).setQueue (s.queueAfter k t event request)).Single := by
  have hframe := TurnRun.frame_step hu
  have hgen : u.gen = t.gen := congrArg (·.2.2.2.1) hframe
  have hsince : u.since = t.since := congrArg (·.2.2.1) hframe
  have hsuperseded : u.superseded = t.superseded := congrArg (·.2.2.2.2) hframe
  have hlive := TurnRun.live_of_step hu
  have hturns : ∀ l v, (s.turns.set k u)[l]? = some v → l = k ∧ v = u ∨ l ≠ k ∧ s.turns[l]? = some v := by
    intro l v hv
    by_cases hl : k = l
    · subst hl
      rw [List.getElem?_set_self (List.getElem?_eq_some_iff.mp hk).1] at hv
      exact .inl ⟨rfl, (Option.some.inj hv).symm⟩
    · rw [List.getElem?_set_ne hl] at hv
      exact .inr ⟨Ne.symm hl, hv⟩
  have hothers : ∀ l v, l ≠ k → s.turns[l]? = some v → v.live = false := by
    intro l v hl hv
    by_contra hnot
    rw [Bool.not_eq_false] at hnot
    exact hl (h.one hv hk hnot hlive)
  have htimers : s.queue.timers = [] := by
    by_contra hset
    exact absurd (h.idle hset t (List.mem_of_getElem? hk)) (by rw [hlive]; decide)
  have hworker : s.queue.serialWorkerActive = true →
      ∃ i k' t', s.phaseOf i = some (.working k') ∧ (s.turns.set k u)[k']? = some t' := by
    intro hactive
    obtain ⟨j, k', t', hj, ht'⟩ := h.worker hactive
    have hlt := (List.getElem?_eq_some_iff.mp ht').1
    exact ⟨j, k', _, hj, List.getElem?_eq_getElem (by rwa [List.length_set])⟩
  have hgens : ∀ v ∈ s.turns.set k u, ∀ gen ∈ v.gen, gen = v.since := by
    intro v hv gen hg
    rcases List.mem_or_eq_of_mem_set hv with hv | rfl
    · exact h.gens v hv gen hg
    · rw [hgen] at hg
      rw [hsince]
      exact h.gens t (List.mem_of_getElem? hk) gen hg
  by_cases hclosed : event = .closed false
  · subst hclosed
    obtain ⟨-, rfl⟩ := Option.ite_some_none_eq_some.mp hu
    have hnone : ∀ v ∈ s.turns.set k { t with phase := .ended false }, v.live = false := by
      intro v hv
      obtain ⟨l, hl⟩ := List.mem_iff_getElem?.mp hv
      rcases hturns l v hl with ⟨-, rfl⟩ | ⟨hne, hv⟩
      · rfl
      · exact hothers l v hne hv
    rw [queueAfter, if_pos rfl]
    exact {
      entering := h.entering
      live := fun l v hv hnot => absurd (hnone v (List.mem_of_getElem? hv)) (by rw [hnot]; decide)
      buffer := (QueueState.maybeSchedulePark_serialBuffer _ _ _).trans h.buffer
      timers := QueueState.maybeSchedulePark_timers htimers (h.park_of_timers htimers)
      idle := fun _ => hnone
      waiting := fun j gen prev hj => by
        obtain ⟨hle, hnew⟩ := h.waiting j gen prev hj
        rw [queue_setQueue, QueueState.maybeSchedulePark_cancelGen]
        refine ⟨hle, fun heq => ⟨?_, fun l v hv hnot => ?_⟩⟩
        · -- it waits for this turn, which it has aborted
          have haborted := (hnew heq).2 k t hk hlive
          rw [QueueState.maybeSchedulePark_of_none (QueueState.waitMs_of_aborted ?_)]
          · exact htimers
          · rw [TurnRun.aborted, haborted.2]
            rfl
        · exact absurd (hnone v (List.mem_of_getElem? hv)) (by rw [hnot]; decide)
      unique := h.unique
      worker := fun hactive => by
        rw [queue_setQueue, QueueState.maybeSchedulePark_serialWorkerActive] at hactive
        exact hworker hactive
      overflow := h.overflow
      joined := by
        rw [queue_setQueue, QueueState.maybeSchedulePark_joined, QueueState.maybeSchedulePark_cancelGen]
        exact h.joined
      gens := hgens }
  · rw [queueAfter, if_neg hclosed]
    exact {
      entering := h.entering
      live := fun l v hv hnot => by
        rcases hturns l v hv with ⟨rfl, -⟩ | ⟨hne, hv⟩
        · exact h.live l t hk hlive
        · exact h.live l v hv hnot
      buffer := h.buffer
      timers := h.timers
      idle := fun hset => absurd htimers hset
      waiting := fun j gen prev hj => by
        obtain ⟨hle, hnew⟩ := h.waiting j gen prev hj
        refine ⟨hle, fun heq => ⟨htimers, fun l v hv hnot => ?_⟩⟩
        rcases hturns l v hv with ⟨rfl, rfl⟩ | ⟨hne, hv⟩
        · rw [hsuperseded]
          exact (hnew heq).2 l t hk hlive
        · exact absurd (hothers l v hne hv) (by rw [hnot]; decide)
      unique := h.unique
      worker := hworker
      overflow := h.overflow
      joined := h.joined
      gens := hgens }

theorem inactive_of_idle (h : s.Single) (hidle : s.Idle c) (hnone : ∀ t ∈ s.turns, t.live = false) :
    s.queue.serialWorkerActive = false := by
  by_contra hactive
  rw [Bool.not_eq_false] at hactive
  obtain ⟨j, k, t, hj, ht⟩ := h.worker hactive
  obtain ⟨call, hcall, hphase⟩ := Option.map_eq_some_iff.mp hj
  have hblocked := hidle j call hcall
  have hlive := hnone t (List.mem_of_getElem? ht)
  rw [resume, hphase] at hblocked
  simp only [ht, Option.bind_some, Option.map_eq_none_iff, turnEnd] at hblocked
  unfold TurnRun.live at hlive
  split at hlive
  · rename_i hended
    rw [hended] at hblocked
    cases hblocked
  · cases hlive

/-- A timer that fires finds no turn running and no worker, so that its own turn starts. -/
theorem single_fire (h : s.Single) {timer : ParkTimer} (htimer : timer ∈ s.queue.timers)
    (hinactive : s.queue.serialWorkerActive = false) : (s.fire c timer).Single := by
  have hset : s.queue.timers ≠ [] := List.ne_nil_of_mem htimer
  have hturns := turns_fire_of_inactive (c := c) timer h.buffer hinactive
  have hqueue := queue_fire_of_inactive (c := c) timer h.buffer hinactive
  have hself := phaseOf_fire_of_inactive (c := c) timer h.buffer hinactive
  have hother : ∀ {j p}, (s.fire c timer).phaseOf j = some p → p ≠ .working s.turns.length →
      j ≠ s.calls.length ∧ s.phaseOf j = some p := by
    intro j p hj hp
    have hnew : j ≠ s.calls.length := fun hnew => hp (Option.some.inj (hj.symm.trans (hnew ▸ hself)))
    exact ⟨hnew, (phaseOf_fire_ne hnew).symm.trans hj⟩
  refine h.start (h.idle hset) hturns ?_ ?_ ?_ ?_ ?_ ?_ (fun j p hp hentering => ?_) (fun j gen prev hj => ?_)
    (fun _ => ⟨s.calls.length, s.turns.length, _, hself, by rw [hturns]; exact List.getElem?_concat_length⟩)
    (fun j d hj => ?_) fun gen hgen => by cases hgen
  · rw [hqueue]
  · rw [hqueue]
  · rw [hqueue]
    exact QueueState.elapse_timers h.timers htimer
  · rw [hqueue]
    rfl
  · rw [hqueue]
    rfl
  · rw [hqueue]
    rfl
  · obtain ⟨hnew, hp⟩ := hother hp (by rcases hentering with rfl | rfl <;> simp)
    rw [originOf, coreOf_fire, if_neg hnew]
    exact h.entering j p hp hentering
  · obtain ⟨-, hj⟩ := hother hj (by simp)
    exact ⟨hj, fun hnew => hset ((h.waiting j gen prev hj).2 hnew).1⟩
  · exact h.overflow j d (hother hj (by simp)).2

/-! ### Runs -/

/-- The messages of the queue cancel the previous turn. -/
def CancelsPrevious : DispatcherAction → Prop
  | .handle route msg _ => resolveQueueMode route msg.conversation.kind = .cancelPrevious
  | _ => True

/-- When a message enters the queue, the turn that it aborts is not exposed, or has gone over its budget. -/
def SafeAbort (policy : TurnPolicy) (s : Dispatcher) : DispatcherAction → Prop
  | .call i event => ∀ call ∈ s.calls[i]?, enters call event = true →
      ∀ k ∈ s.queue.current, ∀ t ∈ s.turns[k]?, t.budgetExceeded = false → t.exposed policy = false
  | _ => True

/-- One turn at most is live, and all of them have stayed silent when they had to. -/
structure Silent (policy : TurnPolicy) (s : Dispatcher) : Prop where
  single : s.Single
  quiet : ∀ t ∈ s.turns, t.Quiet policy

theorem quiet_run (h : ∀ t ∈ s.turns, t.Quiet policy) (gen : ℕ) : ∀ t ∈ (s.run i call gen).turns, t.Quiet policy := by
  intro t ht
  rw [turns_run] at ht
  rcases List.mem_append.mp ht with ht | ht
  · exact h t ht
  · rw [List.mem_singleton.mp ht]
    exact ⟨fun e he => (List.not_mem_nil he).elim, fun _ => rfl⟩

theorem quiet_runCancelPrevious (h : ∀ t ∈ s.turns, t.Quiet policy)
    (hsafe : ∀ k ∈ s.queue.current, ∀ t ∈ s.turns[k]?, t.budgetExceeded = false → t.exposed policy = false) :
    ∀ t ∈ (s.runCancelPrevious i call).turns, t.Quiet policy := by
  unfold runCancelPrevious
  split
  · exact quiet_run (s := s.setQueue s.queue.supersede) h _
  · rename_i prev hcurrent
    intro t ht
    rw [turns_setPhase, turns_abort, turns_setQueue] at ht
    obtain ⟨k, hk⟩ := List.mem_iff_getElem?.mp ht
    rw [List.getElem?_modify] at hk
    obtain ⟨u, hu, rfl⟩ := Option.map_eq_some_iff.mp hk
    have hquiet := h u (List.mem_of_getElem? hu)
    split
    · rename_i hkp
      subst hkp
      exact TurnRun.quiet_superseded hquiet (hsafe _ hcurrent u hu)
    · exact hquiet

theorem silent_step {action : DispatcherAction} (h : s.Silent policy)
    (hguard : CancelsPrevious action ∧ SafeAbort policy s action) (hnext : s.step c policy action = some next) :
    next.Silent policy := by
  cases action with
  | handle route msg channel =>
    obtain rfl := Option.some.inj hnext
    have hhandled := handle_cases (c := c) (s := s) route msg channel
    rw [show resolveQueueMode route msg.conversation.kind = .cancelPrevious from hguard.1] at hhandled
    refine ⟨single_handled h.single hhandled, ?_⟩
    rw [hhandled.turns_eq]
    exact h.quiet
  | call i event =>
    obtain ⟨call, hget, hnext⟩ := Option.bind_eq_some_iff.mp hnext
    have hstep := callStep_cases hnext
    refine ⟨single_callStep h.single hget hstep, ?_⟩
    cases hstep with
    | move =>
      rw [turns_setPhase, turns_note]
      exact h.quiet
    | defer =>
      rw [turns_setPhase, turns_deferMultimodal, turns_write]
      exact h.quiet
    | enter henters =>
      rw [enterQueue, mode_of_enters h.single hget henters]
      exact quiet_runCancelPrevious h.quiet (hguard.2 call hget henters)
    | overflow hphase => exact absurd (hphase ▸ phaseOf_eq_some hget) (h.single.overflow i _)
    | drain =>
      rw [(afterTurn_of_nil h.single hget _ _ _).2.1]
      exact h.quiet
    | newest => exact quiet_run h.quiet _
  | turn k event request =>
    obtain ⟨t, hk, hnext⟩ := Option.bind_eq_some_iff.mp hnext
    obtain ⟨u, hu, rfl⟩ := Option.map_eq_some_iff.mp hnext
    refine ⟨single_turnStep h.single hk hu, fun v hv => ?_⟩
    rcases List.mem_or_eq_of_mem_set hv with hv | rfl
    · exact h.quiet v hv
    · exact TurnRun.quiet_step (h.quiet t (List.mem_of_getElem? hk)) hu
  | fire id =>
    obtain ⟨timer, htimer, hnext⟩ := Option.bind_eq_some_iff.mp hnext
    obtain ⟨hidle, rfl⟩ := Option.ite_some_none_eq_some.mp hnext
    have htimer := List.mem_of_find?_eq_some htimer
    have hinactive := inactive_of_idle h.single hidle (h.single.idle (List.ne_nil_of_mem htimer))
    refine ⟨single_fire h.single htimer hinactive, fun v hv => ?_⟩
    rw [turns_fire_of_inactive _ h.single.buffer hinactive] at hv
    rcases List.mem_append.mp hv with hv | hv
    · exact h.quiet v hv
    · rw [List.mem_singleton.mp hv]
      exact ⟨fun e he => (List.not_mem_nil he).elim, fun _ => rfl⟩

theorem silent_empty : ({} : Dispatcher).Silent policy where
  single := {
    entering := fun i p hp => by cases hp
    live := fun k t hk => by cases hk
    buffer := rfl
    timers := rfl
    idle := fun hset => absurd rfl hset
    waiting := fun i gen prev hi => by cases hi
    unique := fun i j gen prev prev' hi => by cases hi
    worker := fun hactive => by cases hactive
    overflow := fun i d hi => by cases hi
    joined := rfl
    gens := fun t ht => by cases ht }
  quiet t ht := by cases ht

end Dispatcher

/-- In every run of a queue whose messages cancel the previous turn, in which no message aborts an exposed turn, at most one turn is live, each turn of a message is for the newest message at its start, and no turn starts to send or to store a session once it is superseded and neither out of time nor over its budget. -/
theorem superseded_silent {c : Composer} {policy : TurnPolicy} {actions : List DispatcherAction} {s : Dispatcher}
    (hcancels : ∀ a ∈ actions, Dispatcher.CancelsPrevious a)
    (hmeets : (dispatcherSystem c policy).Meets (Dispatcher.SafeAbort policy) {} actions)
    (hrun : (dispatcherSystem c policy).run {} actions = some s) :
    (∀ (k l : ℕ) (t u : TurnRun), s.turns[k]? = some t → s.turns[l]? = some u → t.live = true → u.live = true → k = l) ∧
      (∀ t ∈ s.turns, ∀ gen ∈ t.gen, gen = t.since) ∧ ∀ t ∈ s.turns, ∀ e ∈ t.effects, e.silenced = false := by
  have h : s.Silent policy := System.run_invariant_of_meets _
    (G := fun s a => Dispatcher.CancelsPrevious a ∧ Dispatcher.SafeAbort policy s a)
    (fun _ _ _ h hguard hnext => Dispatcher.silent_step h hguard hnext) Dispatcher.silent_empty
    (hmeets.and_forall hcancels) hrun
  exact ⟨fun k l t u hk hl ht hu => h.single.one hk hl ht hu, h.single.gens, fun t ht => (h.quiet t ht).effects⟩

instance Dispatcher.decidableSafeAbort (policy : TurnPolicy) (s : Dispatcher) : DecidablePred (SafeAbort policy s) := fun _ => by
  unfold SafeAbort
  split <;> infer_instance

instance Dispatcher.decidableCancelsPrevious : DecidablePred CancelsPrevious := fun _ => by
  unfold CancelsPrevious
  split <;> infer_instance

/-- A first message, with what its turn does until the second message arrives, and what the turn does after that. -/
def cancelRun (before after : List TurnEvent) : List DispatcherAction :=
  arrival .direct 0 "h_1" ++ turnEvents 0 before ++ arrival .direct 1 "h_2" ++ turnEvents 0 after

/-- The runtime of the first turn returns after the second message has arrived: the turn stops at its check. -/
def cancelInTime : List DispatcherAction :=
  cancelRun [.prepared false] [.ran false (.returned false { text := "hello", newSessionId := "s_1" }), .completed, .closed false] ++
    [.call 1 .resumed]

theorem superseded_silent_inTime :
    ∃ s, (dispatcherSystem plainComposer plainPolicy).run {} cancelInTime = some s ∧
      (s.turns.map (·.superseded)) = [true, false] ∧
      (∀ (k l : ℕ) (t u : TurnRun), s.turns[k]? = some t → s.turns[l]? = some u → t.live = true → u.live = true → k = l) ∧
      (∀ t ∈ s.turns, ∀ gen ∈ t.gen, gen = t.since) ∧ ∀ t ∈ s.turns, ∀ e ∈ t.effects, e.silenced = false := by
  have hmeets : (dispatcherSystem plainComposer plainPolicy).Meets (Dispatcher.SafeAbort plainPolicy) {} cancelInTime := by
    decide +kernel
  exact ⟨_, rfl, by decide +kernel, superseded_silent (by decide +kernel) hmeets rfl⟩

/-- The second message arrives while the first turn writes its session: the turn then sends its error. -/
theorem superseded_sends :
    ∃ s, (dispatcherSystem plainComposer plainPolicy).run {} (cancelRun
        [.prepared false, .ran false (.returned false { text := "", newSessionId := "s_1", error := some "failed" }), .completed]
        [.persisted]) = some s ∧
      ∃ t ∈ s.turns, t.superseded = true ∧ ⟨.sendError, true⟩ ∈ t.effects :=
  ⟨_, rfl, by decide +kernel⟩

namespace Dispatcher

variable {c : Composer} {policy : TurnPolicy} {s next : Dispatcher}

theorem single_step {action : DispatcherAction} (h : s.Single) (hcancels : CancelsPrevious action)
    (hnext : s.step c policy action = some next) : next.Single := by
  cases action with
  | handle route msg channel =>
    obtain rfl := Option.some.inj hnext
    have hhandled := handle_cases (c := c) (s := s) route msg channel
    rw [show resolveQueueMode route msg.conversation.kind = .cancelPrevious from hcancels] at hhandled
    exact single_handled h hhandled
  | call i event =>
    obtain ⟨call, hget, hnext⟩ := Option.bind_eq_some_iff.mp hnext
    exact single_callStep h hget (callStep_cases hnext)
  | turn k event request =>
    obtain ⟨t, hk, hnext⟩ := Option.bind_eq_some_iff.mp hnext
    obtain ⟨u, hu, rfl⟩ := Option.map_eq_some_iff.mp hnext
    exact single_turnStep h hk hu
  | fire id =>
    obtain ⟨timer, htimer, hnext⟩ := Option.bind_eq_some_iff.mp hnext
    obtain ⟨hidle, rfl⟩ := Option.ite_some_none_eq_some.mp hnext
    have htimer := List.mem_of_find?_eq_some htimer
    exact single_fire h htimer (inactive_of_idle h hidle (h.idle (List.ne_nil_of_mem htimer)))

end Dispatcher

/-- In every run whose messages cancel the previous turn: at most one turn is live, and the queue knows of it; none is live while a re-wake timer is set; and no message waits in the buffer. -/
theorem one_live_turn {c : Composer} {policy : TurnPolicy} {actions : List DispatcherAction} {s : Dispatcher}
    (hmeets : (dispatcherSystem c policy).Meets (fun _ => Dispatcher.CancelsPrevious) {} actions)
    (hrun : (dispatcherSystem c policy).run {} actions = some s) :
    (∀ k t, s.turns[k]? = some t → t.live = true → s.queue.current = some k) ∧
      (s.queue.timers ≠ [] → ∀ t ∈ s.turns, t.live = false) ∧ s.queue.serialBuffer = [] := by
  have h : s.Single := System.run_invariant_of_meets _ (P := Dispatcher.Single)
    (fun _ _ _ h hguard hnext => Dispatcher.single_step h hguard hnext) (@Dispatcher.silent_empty policy).single hmeets hrun
  exact ⟨h.live, h.idle, h.buffer⟩

theorem one_live_turn_inTime : ∃ s, (dispatcherSystem plainComposer plainPolicy).run {} cancelInTime = some s ∧
    s.turns.length = 2 ∧ s.queue.serialBuffer = [] := by
  have hmeets : (dispatcherSystem plainComposer plainPolicy).Meets (fun _ => Dispatcher.CancelsPrevious) {} cancelInTime := by
    decide +kernel
  exact ⟨_, rfl, by decide +kernel, (one_live_turn hmeets rfl).2.2⟩

end BotCord.Gateway
