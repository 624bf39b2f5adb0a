import BotCord.Gateway.Frame
import Mathlib

/-!
# Re-wake timers

A turn of a group room may ask to be woken again, unless a message arrives before. How often and how long a queue waits is bounded on every run.
-/

namespace BotCord.Gateway

namespace QueueState

def waits (q : QueueState) : List ParkTimer × Option ℕ × ℕ × ℕ × ℤ × List ℤ :=
  (q.timers, q.park, q.joined, q.parkCount, q.parkAccumMs, q.parks)

/-- The counters count the waits since their last reset, within their bounds. -/
structure Budgeted (q : QueueState) : Prop where
  count : q.parks.length = q.parkCount
  total : q.parks.sum = q.parkAccumMs
  maxParks : q.parkCount ≤ MAX_PARKS
  maxWait : q.parkAccumMs ≤ MAX_WAIT_MS

/-- The queue knows of its only timer, and no message has joined it since the turn that set it started. -/
structure Parked (q : QueueState) : Prop where
  timers : q.timers.map (·.id) = q.park.toList
  since : ∀ timer ∈ q.timers, timer.since = q.joined

variable {q r : QueueState}

theorem budgeted_congr (h : q.Budgeted) (hwaits : r.waits = q.waits) : r.Budgeted := by
  simp only [waits, Prod.mk.injEq] at hwaits
  obtain ⟨-, -, -, hcount, htotal, hparks⟩ := hwaits
  exact ⟨by rw [hparks, hcount, h.count], by rw [hparks, htotal, h.total], by rw [hcount]; exact h.maxParks,
    by rw [htotal]; exact h.maxWait⟩

theorem parked_congr (h : q.Parked) (hwaits : r.waits = q.waits) : r.Parked := by
  simp only [waits, Prod.mk.injEq] at hwaits
  obtain ⟨htimers, hpark, hjoined, -⟩ := hwaits
  exact ⟨by rw [htimers, hpark, h.timers], by rw [htimers, hjoined]; exact h.since⟩

theorem budgeted_resetParks : q.resetParks.Budgeted where
  count := rfl
  total := rfl
  maxParks := Nat.zero_le _
  maxWait := Int.le_of_lt (by decide : (0 : ℤ) < MAX_WAIT_MS)

theorem budgeted_supersedePendingPark (h : q.Budgeted) : q.supersedePendingPark.Budgeted := by
  unfold supersedePendingPark
  split
  · exact h
  · exact budgeted_resetParks

theorem budgeted_push (h : q.Budgeted) (i : TurnId) (call : Call) : (q.push i call).Budgeted :=
  have hpending := budgeted_supersedePendingPark h
  ⟨hpending.count, hpending.total, hpending.maxParks, hpending.maxWait⟩

theorem budgeted_supersede (h : q.Budgeted) : q.supersede.Budgeted :=
  have hpending := budgeted_supersedePendingPark h
  ⟨hpending.count, hpending.total, hpending.maxParks, hpending.maxWait⟩

theorem budgeted_maybeSchedulePark (h : q.Budgeted) (t : TurnRun) (request : ParkRequest) :
    (q.maybeSchedulePark t request).Budgeted := by
  unfold maybeSchedulePark
  split
  · exact budgeted_resetParks
  · rename_i wait hwait
    unfold waitMs at hwait
    obtain ⟨-, hwait⟩ := Option.ite_none_left_eq_some.mp hwait
    obtain ⟨deadline, -, hwait⟩ := Option.bind_eq_some_iff.mp hwait
    obtain ⟨hcap, hwait⟩ := Option.ite_none_left_eq_some.mp hwait
    obtain ⟨hpositive, hwait⟩ := Option.ite_none_left_eq_some.mp hwait
    obtain rfl := Option.some.inj hwait
    have hleft : q.clampedWait deadline request.now ≤ MAX_WAIT_MS - q.parkAccumMs := by
      unfold clampedWait at hpositive ⊢
      omega
    have hcount := h.count
    have htotal := h.total
    refine ⟨?_, ?_, ?_, ?_⟩
    · rw [List.length_append, hcount]
      rfl
    · rw [List.sum_append, htotal, List.sum_singleton]
    · dsimp only
      omega
    · dsimp only
      omega

theorem parked_of_nil (htimers : q.timers = []) (hpark : q.park = none) : q.Parked where
  timers := by rw [htimers, hpark]; rfl
  since timer htimer := by rw [htimers] at htimer; cases htimer

theorem parked_push (h : q.Parked) (i : TurnId) (call : Call) : (q.push i call).Parked :=
  parked_of_nil (supersedePendingPark_timers h.timers) (supersedePendingPark_park q)

theorem parked_supersede (h : q.Parked) : q.supersede.Parked :=
  parked_of_nil (supersedePendingPark_timers h.timers) (supersedePendingPark_park q)

theorem parked_elapse (h : q.Parked) {timer : ParkTimer} (htimer : timer ∈ q.timers) : (q.elapse timer).Parked :=
  parked_of_nil (elapse_timers h.timers htimer) rfl

/-- A turn sets a timer where there is none, and no message has joined the queue since it started. -/
theorem parked_maybeSchedulePark (h : q.Parked) {t : TurnRun} {request : ParkRequest}
    (hafresh : (q.waitMs t request).isSome = true → q.park = none ∧ q.joined = t.since) :
    (q.maybeSchedulePark t request).Parked := by
  unfold maybeSchedulePark
  split
  · exact ⟨h.timers, h.since⟩
  · rename_i wait hwait
    obtain ⟨hpark, hjoined⟩ := hafresh (by rw [hwait]; rfl)
    have htimers : q.timers = [] := by
      have htimers := h.timers
      rw [hpark] at htimers
      exact List.map_eq_nil_iff.mp htimers
    refine ⟨?_, fun timer htimer => ?_⟩
    · rw [htimers]
      rfl
    · rw [htimers] at htimer
      rw [List.mem_singleton.mp htimer]
      exact hjoined.symm

end QueueState

namespace Dispatcher

variable {c : Composer} {policy : TurnPolicy} {s next : Dispatcher} {i : TurnId} {call : Call}

theorem waits_startTurn (entry : BufferedSerialEntry) (members : List TurnId) (gen : Option ℕ) :
    (s.startTurn entry members gen).queue.waits = s.queue.waits := by
  rw [queue_startTurn]
  rfl

theorem waits_work : (s.work c i).queue.waits = s.queue.waits := by
  unfold work
  split
  · rw [queue_setPhase, waits_startTurn, queue_writeAll]
    rfl
  · rfl

theorem waits_afterPush : (s.afterPush c i).queue.waits = s.queue.waits := by
  unfold afterPush
  split
  · split
    · rfl
    · split
      · rfl
      · exact waits_work
  · split
    · rfl
    · exact waits_work

theorem waits_run (gen : ℕ) : (s.run i call gen).queue.waits = s.queue.waits := by
  rw [run, queue_setPhase, waits_startTurn]

theorem waits_afterTurn {k : ℕ} {t : TurnRun} {failed : Bool} :
    (s.afterTurn c i k t failed).queue.waits = s.queue.waits := by
  unfold afterTurn
  split
  · rfl
  · rw [waits_work, queue_settleAll]

theorem waits_runCancelPrevious : (s.runCancelPrevious i call).queue.waits = s.queue.supersede.waits := by
  unfold runCancelPrevious
  split
  · exact waits_run _
  · rw [queue_setPhase, queue_abort, queue_setQueue]

/-- What holds of the waits of a queue is kept by a step if the arrivals, the firing of a timer and the end of a turn keep it. -/
theorem waits_step {P : QueueState → Prop} {action : DispatcherAction}
    (hcongr : ∀ q r : QueueState, P q → r.waits = q.waits → P r)
    (hpush : ∀ (q : QueueState) i call, P q → P (q.push i call)) (hsupersede : ∀ q : QueueState, P q → P q.supersede)
    (helapse : ∀ (q : QueueState) (timer), timer ∈ q.timers → P q → P (q.elapse timer))
    (hturn : ∀ k event request, action = .turn k event request → ∀ t, s.turns[k]? = some t →
      P (s.queueAfter k t event request))
    (h : P s.queue) (hnext : s.step c policy action = some next) : P next.queue := by
  cases action with
  | handle route msg channel =>
    obtain rfl := Option.some.inj hnext
    rw [(handle_cases route msg channel).queue_eq]
    exact h
  | call i event =>
    obtain ⟨call, hget, hnext⟩ := Option.bind_eq_some_iff.mp hnext
    cases callStep_cases hnext with
    | move =>
      rw [queue_setPhase, queue_note]
      exact h
    | defer =>
      rw [queue_setPhase, queue_deferMultimodal, queue_write]
      exact h
    | enter henters =>
      unfold enterQueue
      split
      · exact hcongr _ _ (hpush _ i call h) waits_afterPush
      · exact hcongr _ _ (hsupersede _ h) waits_runCancelPrevious
    | overflow => exact hcongr _ _ h waits_afterPush
    | drain => exact hcongr _ _ h waits_afterTurn
    | newest => exact hcongr _ _ h (waits_run _)
  | turn k event request =>
    obtain ⟨t, hk, hnext⟩ := Option.bind_eq_some_iff.mp hnext
    obtain ⟨u, -, rfl⟩ := Option.map_eq_some_iff.mp hnext
    exact hturn k event request rfl t hk
  | fire id =>
    obtain ⟨timer, htimer, hnext⟩ := Option.bind_eq_some_iff.mp hnext
    obtain ⟨-, rfl⟩ := Option.ite_some_none_eq_some.mp hnext
    exact hcongr _ _ (hpush _ _ _ (helapse _ timer (List.mem_of_find?_eq_some htimer) h)) waits_afterPush

theorem budgeted_step {action : DispatcherAction} (h : s.queue.Budgeted) (hnext : s.step c policy action = some next) :
    next.queue.Budgeted := by
  refine waits_step (fun _ _ => QueueState.budgeted_congr) (fun _ i call hq => QueueState.budgeted_push hq i call)
    (fun _ => QueueState.budgeted_supersede) (fun _ _ _ hq => ⟨hq.count, hq.total, hq.maxParks, hq.maxWait⟩)
    (fun k event request _ t _ => ?_) h hnext
  unfold queueAfter
  split
  · have hset : (s.queue.setCurrent (if s.queue.current = some k then none else s.queue.current)).Budgeted :=
      ⟨h.count, h.total, h.maxParks, h.maxWait⟩
    exact QueueState.budgeted_maybeSchedulePark hset t request
  · exact h

/-- A turn that sets a timer at its end does so while none is set, and no message has joined the queue since it started. -/
def ParksAfresh (s : Dispatcher) : DispatcherAction → Prop
  | .turn k event request => ∀ t ∈ s.turns[k]?, event = .closed false → (s.queue.waitMs t request).isSome = true →
      s.queue.park = none ∧ s.queue.joined = t.since
  | _ => True

theorem parked_step {action : DispatcherAction} (h : s.queue.Parked) (hguard : ParksAfresh s action)
    (hnext : s.step c policy action = some next) : next.queue.Parked := by
  refine waits_step (fun _ _ => QueueState.parked_congr) (fun _ i call hq => QueueState.parked_push hq i call)
    (fun _ => QueueState.parked_supersede) (fun _ _ htimer hq => QueueState.parked_elapse hq htimer)
    (fun k event request heq t hk => ?_) h hnext
  subst heq
  unfold queueAfter
  split
  · rename_i hclosed
    have hset : (s.queue.setCurrent (if s.queue.current = some k then none else s.queue.current)).Parked :=
      ⟨h.timers, h.since⟩
    exact QueueState.parked_maybeSchedulePark hset (hguard t hk hclosed)
  · exact h

end Dispatcher

/-- In every run, a queue has waited at most `MAX_PARKS` times, and for `MAX_WAIT_MS` in all, since its counters were reset. -/
theorem parks_bounded {c : Composer} {policy : TurnPolicy} {actions : List DispatcherAction} {s : Dispatcher}
    (hrun : (dispatcherSystem c policy).run {} actions = some s) :
    s.queue.parks.length ≤ MAX_PARKS ∧ s.queue.parks.sum ≤ MAX_WAIT_MS := by
  have h : s.queue.Budgeted := System.run_invariant _ (P := fun s => s.queue.Budgeted)
    (fun _ _ _ h hnext => Dispatcher.budgeted_step h hnext) (QueueState.budgeted_resetParks (q := {})) hrun
  exact ⟨h.count ▸ h.maxParks, h.total ▸ h.maxWait⟩

/-- In every run whose turns only set a timer while none is set and no message has joined since they started, a queue has one timer at most, the one it knows of, and none that a turn from before the last message has set; and its waits are within their bounds. -/
theorem one_timer {c : Composer} {policy : TurnPolicy} {actions : List DispatcherAction} {s : Dispatcher}
    (hmeets : (dispatcherSystem c policy).Meets Dispatcher.ParksAfresh {} actions)
    (hrun : (dispatcherSystem c policy).run {} actions = some s) :
    s.queue.timers.length ≤ 1 ∧ s.queue.timers.map (·.id) = s.queue.park.toList ∧
      (∀ timer ∈ s.queue.timers, timer.since = s.queue.joined) ∧
      s.queue.parks.length ≤ MAX_PARKS ∧ s.queue.parks.sum ≤ MAX_WAIT_MS := by
  have h : s.queue.Parked := System.run_invariant_of_meets _ (P := fun s => s.queue.Parked)
    (fun _ _ _ h hguard hnext => Dispatcher.parked_step h hguard hnext) (QueueState.parked_of_nil rfl rfl) hmeets hrun
  refine ⟨?_, h.timers, h.since, parks_bounded hrun⟩
  have hlength := congrArg List.length h.timers
  rw [List.length_map] at hlength
  rw [hlength]
  exact Option.length_toList_le

instance Dispatcher.decidableParksAfresh (s : Dispatcher) : DecidablePred (ParksAfresh s) := fun _ => by
  unfold ParksAfresh
  split <;> infer_instance

/-- The turn `k` runs and asks to be woken after ten seconds. -/
def waitingTurn (k : ℕ) : List DispatcherAction :=
  turnEvents k [.prepared false, .ran false (.returned false { text := "", newSessionId := "" }), .completed] ++
    [.turn k (.closed false) { deadlineMs := some 10000 }]

/-- A turn waits, is woken and waits again. -/
def waitTwice : List DispatcherAction :=
  arrival .group 0 "h_1" ++ waitingTurn 0 ++ [.call 0 .resumed, .call 0 .resumed, .fire 0] ++ waitingTurn 1

theorem one_timer_waitTwice :
    ∃ s, (dispatcherSystem plainComposer plainPolicy).run {} waitTwice = some s ∧ s.queue.parks = [10000, 10000] ∧
      s.queue.timers.length ≤ 1 ∧ s.queue.timers.map (·.id) = s.queue.park.toList ∧
      (∀ timer ∈ s.queue.timers, timer.since = s.queue.joined) ∧
      s.queue.parks.length ≤ MAX_PARKS ∧ s.queue.parks.sum ≤ MAX_WAIT_MS := by
  have hmeets : (dispatcherSystem plainComposer plainPolicy).Meets Dispatcher.ParksAfresh {} waitTwice := by
    decide +kernel
  exact ⟨_, rfl, by decide +kernel, one_timer hmeets rfl⟩

/-- A second message arrives while the turn of the first one runs; both turns wait. -/
def waitBoth : List DispatcherAction :=
  arrival .group 0 "h_1" ++ arrival .group 1 "h_2" ++ waitingTurn 0 ++ [.call 0 .resumed] ++ waitingTurn 1

/-- The queue then has two timers and knows of the second; a third message clears that one, and the first one fires. -/
theorem second_timer :
    (∃ s, (dispatcherSystem plainComposer plainPolicy).run {} waitBoth = some s ∧
      s.queue.timers.map (·.id) = [0, 1] ∧ s.queue.park = some 1) ∧
    ∃ s, (dispatcherSystem plainComposer plainPolicy).run {}
        (waitBoth ++ [.call 0 .resumed, .call 0 .resumed, .call 1 .resumed] ++ arrival .group 2 "h_3") = some s ∧
      (∃ timer ∈ s.queue.timers, timer.since < s.queue.joined) ∧ s.queue.park = none ∧
      (s.step plainComposer plainPolicy (.fire 0)).isSome = true :=
  ⟨⟨_, rfl, by decide +kernel⟩, _, rfl, by decide +kernel⟩

end BotCord.Gateway
