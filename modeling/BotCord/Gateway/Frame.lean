import BotCord.Gateway.Dispatcher

/-!
# What an operation leaves alone

The operations of the dispatcher one by one: what each does to the phase of a call, to the promise of its entry, to the turns and to the queue, and that it leaves the rest as it is.
-/

namespace BotCord.Gateway

/-! ### The re-wake timer of a queue -/

namespace QueueState

variable (q : QueueState)

@[simp] theorem supersedePendingPark_current : q.supersedePendingPark.current = q.current := by
  unfold supersedePendingPark
  split <;> rfl

@[simp] theorem supersedePendingPark_cancelGen : q.supersedePendingPark.cancelGen = q.cancelGen := by
  unfold supersedePendingPark
  split <;> rfl

@[simp] theorem supersedePendingPark_serialWorkerActive :
    q.supersedePendingPark.serialWorkerActive = q.serialWorkerActive := by
  unfold supersedePendingPark
  split <;> rfl

@[simp] theorem supersedePendingPark_serialBuffer : q.supersedePendingPark.serialBuffer = q.serialBuffer := by
  unfold supersedePendingPark
  split <;> rfl

@[simp] theorem supersedePendingPark_serialOrder : q.supersedePendingPark.serialOrder = q.serialOrder := by
  unfold supersedePendingPark
  split <;> rfl

@[simp] theorem supersedePendingPark_park : q.supersedePendingPark.park = none := by
  unfold supersedePendingPark
  split
  · assumption
  · rfl

variable (t : TurnRun) (request : ParkRequest)

@[simp] theorem maybeSchedulePark_cancelGen : (q.maybeSchedulePark t request).cancelGen = q.cancelGen := by
  unfold maybeSchedulePark
  split <;> rfl

@[simp] theorem maybeSchedulePark_serialBuffer : (q.maybeSchedulePark t request).serialBuffer = q.serialBuffer := by
  unfold maybeSchedulePark
  split <;> rfl

@[simp] theorem maybeSchedulePark_serialWorkerActive :
    (q.maybeSchedulePark t request).serialWorkerActive = q.serialWorkerActive := by
  unfold maybeSchedulePark
  split <;> rfl

@[simp] theorem maybeSchedulePark_joined : (q.maybeSchedulePark t request).joined = q.joined := by
  unfold maybeSchedulePark
  split <;> rfl

variable {q t request}

theorem maybeSchedulePark_of_none (h : q.waitMs t request = none) : q.maybeSchedulePark t request = q.resetParks := by
  rw [maybeSchedulePark, h]

theorem maybeSchedulePark_timers (htimers : q.timers = []) (hpark : q.park = none) :
    (q.maybeSchedulePark t request).timers.map (·.id) = (q.maybeSchedulePark t request).park.toList := by
  unfold maybeSchedulePark
  split
  · rw [resetParks, htimers, hpark]
    rfl
  · rw [htimers]
    rfl

theorem waitMs_of_aborted (h : t.aborted = true) : q.waitMs t request = none := by
  rw [waitMs, h, Bool.or_true, if_pos rfl]

theorem supersedePendingPark_of_none (h : q.park = none) : q.supersedePendingPark = q := by
  rw [supersedePendingPark, h]

theorem eq_of_mem_timers (h : q.timers.map (·.id) = q.park.toList) {timer : ParkTimer} (htimer : timer ∈ q.timers) :
    q.park = some timer.id := by
  have hid : timer.id ∈ q.timers.map (·.id) := List.mem_map_of_mem htimer
  rw [h] at hid
  exact Option.mem_toList.mp hid

theorem supersedePendingPark_timers (h : q.timers.map (·.id) = q.park.toList) : q.supersedePendingPark.timers = [] := by
  unfold supersedePendingPark
  cases hpark : q.park with
  | none =>
    rw [hpark] at h
    exact List.map_eq_nil_iff.mp h
  | some id =>
    refine List.filter_eq_nil_iff.mpr fun timer htimer => ?_
    have hid := Option.some.inj (hpark.symm.trans (eq_of_mem_timers h htimer))
    simp [hid]

theorem elapse_timers (h : q.timers.map (·.id) = q.park.toList) {timer : ParkTimer} (htimer : timer ∈ q.timers) :
    (q.elapse timer).timers = [] := by
  refine List.filter_eq_nil_iff.mpr fun timer' htimer' => ?_
  have hid := Option.some.inj ((eq_of_mem_timers h htimer').symm.trans (eq_of_mem_timers h htimer))
  simp [hid]

end QueueState

namespace Dispatcher

variable (s : Dispatcher)

def phaseOf (i : TurnId) : Option CallPhase := s.calls[i]?.map (·.phase)

/-- A call without what it goes through: its await and its records. -/
def coreOf (i : TurnId) : Option Call := s.calls[i]?.map fun call => { call with phase := .returned, records := [] }

def originOf (i : TurnId) : Option (Bool × QueueMode × BufferedSerialEntry × List TurnId) :=
  (s.coreOf i).map fun call => (call.rewake, call.mode, call.dispatch, call.taken)

section

variable {s} {i : TurnId} {call : Call} (h : s.calls[i]? = some call)

include h

theorem phaseOf_eq_some : s.phaseOf i = some call.phase := by
  rw [phaseOf, h, Option.map_some]

theorem originOf_eq_some : s.originOf i = some (call.rewake, call.mode, call.dispatch, call.taken) := by
  rw [originOf, coreOf, h, Option.map_some, Option.map_some]

end

def note (i : TurnId) : Option RecordKind → Dispatcher
  | none => s
  | some kind => s.write i kind

section

variable (i j : TurnId) (phase : CallPhase) (kind : RecordKind) (completion : Completion) (ids : List TurnId)
  (queue : QueueState) (call : Call) (deferred : List BufferedSerialEntry) (k : ℕ) (t : TurnRun)

theorem phaseOf_setPhase :
    (s.setPhase i phase).phaseOf j = if i = j then (s.phaseOf j).map fun _ => phase else s.phaseOf j := by
  unfold phaseOf setPhase
  rw [List.getElem?_modify]
  split
  · cases s.calls[j]? <;> rfl
  · cases s.calls[j]? <;> rfl

theorem phaseOf_setPhase_self {i : TurnId} {was : CallPhase} (h : s.phaseOf i = some was) :
    (s.setPhase i phase).phaseOf i = some phase := by
  rw [phaseOf_setPhase, if_pos rfl, h, Option.map_some]

theorem phaseOf_setPhase_ne {i j : TurnId} (h : i ≠ j) : (s.setPhase i phase).phaseOf j = s.phaseOf j := by
  rw [phaseOf_setPhase, if_neg h]

@[simp] theorem phaseOf_write : (s.write i kind).phaseOf j = s.phaseOf j := by
  unfold phaseOf write
  rw [List.getElem?_modify]
  split <;> cases s.calls[j]? <;> rfl

@[simp] theorem phaseOf_settle : (s.settle completion i).phaseOf j = s.phaseOf j := by
  unfold phaseOf settle
  rw [List.getElem?_modify]
  split <;> cases s.calls[j]? <;> rfl

@[simp] theorem phaseOf_writeAll : (s.writeAll ids kind).phaseOf j = s.phaseOf j := by
  induction ids generalizing s with
  | nil => rfl
  | cons id rest ih => exact (ih (s.write id kind)).trans (phaseOf_write s id j kind)

@[simp] theorem phaseOf_settleAll : (s.settleAll completion ids).phaseOf j = s.phaseOf j := by
  induction ids generalizing s with
  | nil => rfl
  | cons id rest ih => exact (ih (s.settle completion id)).trans (phaseOf_settle s id j completion)

@[simp] theorem phaseOf_note (kind : Option RecordKind) : (s.note i kind).phaseOf j = s.phaseOf j := by
  cases kind with
  | none => rfl
  | some kind => exact phaseOf_write s i j kind

@[simp] theorem phaseOf_setQueue : (s.setQueue queue).phaseOf j = s.phaseOf j := rfl

@[simp] theorem phaseOf_setDeferred : (s.setDeferred deferred).phaseOf j = s.phaseOf j := rfl

@[simp] theorem phaseOf_setTurn : (s.setTurn k t).phaseOf j = s.phaseOf j := rfl

@[simp] theorem phaseOf_addTurn : (s.addTurn t).phaseOf j = s.phaseOf j := rfl

theorem getElem?_addCall :
    (s.addCall call).calls[j]? = if j = s.calls.length then some call else s.calls[j]? := by
  unfold addCall
  rcases Nat.lt_trichotomy j s.calls.length with hlt | rfl | hgt
  · rw [if_neg (Nat.ne_of_lt hlt), List.getElem?_append_left hlt]
  · rw [if_pos rfl, List.getElem?_concat_length]
  · rw [if_neg (Nat.ne_of_gt hgt), List.getElem?_append_right (Nat.le_of_lt hgt), List.getElem?_eq_none (by simp; omega),
      List.getElem?_eq_none (Nat.le_of_lt hgt)]

theorem phaseOf_addCall :
    (s.addCall call).phaseOf j = if j = s.calls.length then some call.phase else s.phaseOf j := by
  rw [phaseOf, getElem?_addCall]
  split <;> rfl

theorem phaseOf_length : s.phaseOf s.calls.length = none := by
  rw [phaseOf, List.getElem?_eq_none (Nat.le_refl _), Option.map_none]

@[simp] theorem coreOf_setPhase : (s.setPhase i phase).coreOf j = s.coreOf j := by
  unfold coreOf setPhase
  rw [List.getElem?_modify]
  split <;> cases s.calls[j]? <;> rfl

@[simp] theorem coreOf_write : (s.write i kind).coreOf j = s.coreOf j := by
  unfold coreOf write
  rw [List.getElem?_modify]
  split <;> cases s.calls[j]? <;> rfl

@[simp] theorem coreOf_writeAll : (s.writeAll ids kind).coreOf j = s.coreOf j := by
  induction ids generalizing s with
  | nil => rfl
  | cons id rest ih => exact (ih (s.write id kind)).trans (coreOf_write s id j kind)

@[simp] theorem coreOf_note (kind : Option RecordKind) : (s.note i kind).coreOf j = s.coreOf j := by
  cases kind with
  | none => rfl
  | some kind => exact coreOf_write s i j kind

@[simp] theorem coreOf_setQueue : (s.setQueue queue).coreOf j = s.coreOf j := rfl

@[simp] theorem coreOf_setDeferred : (s.setDeferred deferred).coreOf j = s.coreOf j := rfl

@[simp] theorem coreOf_setTurn : (s.setTurn k t).coreOf j = s.coreOf j := rfl

@[simp] theorem coreOf_addTurn : (s.addTurn t).coreOf j = s.coreOf j := rfl

theorem coreOf_settle : (s.settle completion i).coreOf j =
    if i = j then (s.coreOf j).map fun call => { call with completion := call.completion.or (some completion) }
    else s.coreOf j := by
  unfold coreOf settle
  rw [List.getElem?_modify]
  split
  · cases s.calls[j]? <;> rfl
  · cases s.calls[j]? <;> rfl

@[simp] theorem originOf_settle : (s.settle completion i).originOf j = s.originOf j := by
  rw [originOf, originOf, coreOf_settle]
  split
  · cases s.coreOf j <;> rfl
  · rfl

@[simp] theorem originOf_settleAll : (s.settleAll completion ids).originOf j = s.originOf j := by
  induction ids generalizing s with
  | nil => rfl
  | cons id rest ih => exact (ih (s.settle completion id)).trans (originOf_settle s id j completion)

theorem coreOf_addCall : (s.addCall call).coreOf j =
    if j = s.calls.length then some { call with phase := .returned, records := [] } else s.coreOf j := by
  rw [coreOf, getElem?_addCall]
  split <;> rfl

@[simp] theorem turns_setPhase : (s.setPhase i phase).turns = s.turns := rfl

@[simp] theorem turns_write : (s.write i kind).turns = s.turns := rfl

@[simp] theorem turns_settle : (s.settle completion i).turns = s.turns := rfl

@[simp] theorem turns_writeAll : (s.writeAll ids kind).turns = s.turns := by
  induction ids generalizing s with
  | nil => rfl
  | cons id rest ih => exact ih (s.write id kind)

@[simp] theorem turns_settleAll : (s.settleAll completion ids).turns = s.turns := by
  induction ids generalizing s with
  | nil => rfl
  | cons id rest ih => exact ih (s.settle completion id)

@[simp] theorem turns_note (kind : Option RecordKind) : (s.note i kind).turns = s.turns := by
  cases kind <;> rfl

@[simp] theorem turns_setQueue : (s.setQueue queue).turns = s.turns := rfl

@[simp] theorem turns_setDeferred : (s.setDeferred deferred).turns = s.turns := rfl

@[simp] theorem turns_setTurn : (s.setTurn k t).turns = s.turns.set k t := rfl

@[simp] theorem turns_addTurn : (s.addTurn t).turns = s.turns ++ [t] := rfl

@[simp] theorem turns_addCall : (s.addCall call).turns = s.turns := rfl

@[simp] theorem queue_setPhase : (s.setPhase i phase).queue = s.queue := rfl

@[simp] theorem queue_write : (s.write i kind).queue = s.queue := rfl

@[simp] theorem queue_settle : (s.settle completion i).queue = s.queue := rfl

@[simp] theorem queue_writeAll : (s.writeAll ids kind).queue = s.queue := by
  induction ids generalizing s with
  | nil => rfl
  | cons id rest ih => exact ih (s.write id kind)

@[simp] theorem queue_settleAll : (s.settleAll completion ids).queue = s.queue := by
  induction ids generalizing s with
  | nil => rfl
  | cons id rest ih => exact ih (s.settle completion id)

@[simp] theorem queue_note (kind : Option RecordKind) : (s.note i kind).queue = s.queue := by
  cases kind <;> rfl

@[simp] theorem queue_setQueue : (s.setQueue queue).queue = queue := rfl

@[simp] theorem queue_setDeferred : (s.setDeferred deferred).queue = s.queue := rfl

@[simp] theorem queue_setTurn : (s.setTurn k t).queue = s.queue := rfl

@[simp] theorem queue_addCall : (s.addCall call).queue = s.queue := rfl

/-! ### The number of calls -/

@[simp] theorem length_write : (s.write i kind).calls.length = s.calls.length := List.length_modify ..

@[simp] theorem length_writeAll : (s.writeAll ids kind).calls.length = s.calls.length := by
  induction ids generalizing s with
  | nil => rfl
  | cons id rest ih => exact (ih (s.write id kind)).trans (length_write s id kind)

end

/-! ### Records

They are only added. -/

section

variable (i j : TurnId) (phase : CallPhase) (kind : RecordKind) (completion : Completion) (ids : List TurnId)

end

/-! ### Operations put together

A call changes no phase but its own, and of the cores only the completions. -/

section

variable {s} {c : Composer} {i j : TurnId} {call : Call}

theorem originOf_of_core {next : Dispatcher} (h : next.coreOf j = s.coreOf j) : next.originOf j = s.originOf j := by
  rw [originOf, h, originOf]

theorem phaseOf_startTurn (entry : BufferedSerialEntry) (members : List TurnId) (gen : Option ℕ) :
    (s.startTurn entry members gen).phaseOf j = s.phaseOf j := by
  simp [startTurn]

theorem turns_startTurn (entry : BufferedSerialEntry) (members : List TurnId) (gen : Option ℕ) :
    (s.startTurn entry members gen).turns = s.turns ++ [{ entry, members, since := s.queue.joined, gen }] := by
  simp [startTurn]

theorem queue_startTurn (entry : BufferedSerialEntry) (members : List TurnId) (gen : Option ℕ) :
    (s.startTurn entry members gen).queue = s.queue.setCurrent (some s.turns.length) := by
  simp [startTurn]

theorem coreOf_startTurn (entry : BufferedSerialEntry) (members : List TurnId) (gen : Option ℕ) :
    (s.startTurn entry members gen).coreOf j = s.coreOf j := by
  simp [startTurn]

section

variable (oldest : BufferedSerialEntry) (rest : List BufferedSerialEntry)

theorem phaseOf_dropOldest_ne (h : i ≠ j) : (s.dropOldest i oldest rest).phaseOf j = s.phaseOf j := by
  rw [dropOldest, phaseOf_setPhase_ne _ _ h, phaseOf_write, phaseOf_setQueue]

@[simp] theorem coreOf_dropOldest : (s.dropOldest i oldest rest).coreOf j = s.coreOf j := by
  simp [dropOldest]

@[simp] theorem turns_dropOldest : (s.dropOldest i oldest rest).turns = s.turns := rfl

@[simp] theorem queue_dropOldest : (s.dropOldest i oldest rest).queue = s.queue.setBuffer rest := rfl

end

theorem phaseOf_work_ne (h : i ≠ j) : (s.work c i).phaseOf j = s.phaseOf j := by
  unfold work
  split <;> simp [phaseOf_setPhase_ne _ _ h, phaseOf_startTurn]

theorem coreOf_work : (s.work c i).coreOf j = s.coreOf j := by
  unfold work
  split <;> simp [coreOf_startTurn]

theorem phaseOf_afterPush_ne (h : i ≠ j) : (s.afterPush c i).phaseOf j = s.phaseOf j := by
  unfold afterPush
  split
  · split
    · exact phaseOf_dropOldest_ne _ _ h
    · split
      · simp [phaseOf_setPhase_ne _ _ h]
      · exact phaseOf_work_ne h
  · split
    · simp [phaseOf_setPhase_ne _ _ h]
    · exact phaseOf_work_ne h

theorem coreOf_afterPush : (s.afterPush c i).coreOf j = s.coreOf j := by
  unfold afterPush
  split
  · split
    · simp
    · split
      · simp
      · exact coreOf_work
  · split
    · simp
    · exact coreOf_work

theorem phaseOf_runSerial_ne (h : i ≠ j) : (s.runSerial c i call).phaseOf j = s.phaseOf j := by
  rw [runSerial, phaseOf_afterPush_ne h, phaseOf_setPhase_ne _ _ h, phaseOf_setQueue]

theorem coreOf_runSerial : (s.runSerial c i call).coreOf j = s.coreOf j := by
  rw [runSerial, coreOf_afterPush, coreOf_setPhase, coreOf_setQueue]

@[simp] theorem phaseOf_abort (prev : ℕ) : (s.abort prev).phaseOf j = s.phaseOf j := by
  unfold abort
  split <;> simp

@[simp] theorem coreOf_abort (prev : ℕ) : (s.abort prev).coreOf j = s.coreOf j := by
  unfold abort
  split <;> simp

@[simp] theorem queue_abort (prev : ℕ) : (s.abort prev).queue = s.queue := by
  unfold abort
  split <;> simp

theorem turns_abort (prev : ℕ) :
    (s.abort prev).turns = s.turns.modify prev fun t => { t with superseded := true } := by
  unfold abort
  split
  · rename_i hprev
    rw [turns_write, turns_setTurn, List.modify_eq_set_getElem?, hprev]
    rfl
  · rename_i hprev
    rw [List.modify_eq_self (List.getElem?_eq_none_iff.mp hprev)]

theorem phaseOf_run_ne (gen : ℕ) (h : i ≠ j) : (s.run i call gen).phaseOf j = s.phaseOf j := by
  rw [run, phaseOf_setPhase_ne _ _ h, phaseOf_startTurn]

theorem coreOf_run (gen : ℕ) : (s.run i call gen).coreOf j = s.coreOf j := by
  rw [run, coreOf_setPhase, coreOf_startTurn]

theorem turns_run (gen : ℕ) : (s.run i call gen).turns =
    s.turns ++ [{ entry := call.dispatch, members := [i], since := s.queue.joined, gen := some gen }] :=
  turns_startTurn ..

theorem queue_run (gen : ℕ) : (s.run i call gen).queue = s.queue.setCurrent (some s.turns.length) :=
  queue_startTurn call.dispatch [i] (some gen)

theorem phaseOf_runCancelPrevious_ne (h : i ≠ j) : (s.runCancelPrevious i call).phaseOf j = s.phaseOf j := by
  unfold runCancelPrevious
  split
  · rw [phaseOf_run_ne _ h, phaseOf_setQueue]
  · rw [phaseOf_setPhase_ne _ _ h, phaseOf_abort, phaseOf_setQueue]

theorem coreOf_runCancelPrevious : (s.runCancelPrevious i call).coreOf j = s.coreOf j := by
  unfold runCancelPrevious
  split
  · rw [coreOf_run, coreOf_setQueue]
  · rw [coreOf_setPhase, coreOf_abort, coreOf_setQueue]

theorem phaseOf_enterQueue_ne (h : i ≠ j) : (s.enterQueue c i call).phaseOf j = s.phaseOf j := by
  unfold enterQueue
  split
  · exact phaseOf_runSerial_ne h
  · exact phaseOf_runCancelPrevious_ne h

theorem coreOf_enterQueue : (s.enterQueue c i call).coreOf j = s.coreOf j := by
  unfold enterQueue
  split
  · exact coreOf_runSerial
  · exact coreOf_runCancelPrevious

@[simp] theorem phaseOf_deferMultimodal (entry : BufferedSerialEntry) :
    (s.deferMultimodal entry).phaseOf j = s.phaseOf j := by
  unfold deferMultimodal
  split
  · split <;> simp
  · simp

@[simp] theorem coreOf_deferMultimodal (entry : BufferedSerialEntry) :
    (s.deferMultimodal entry).coreOf j = s.coreOf j := by
  unfold deferMultimodal
  split
  · split <;> simp
  · simp

@[simp] theorem turns_deferMultimodal (entry : BufferedSerialEntry) : (s.deferMultimodal entry).turns = s.turns := by
  unfold deferMultimodal
  split
  · split <;> simp
  · simp

@[simp] theorem queue_deferMultimodal (entry : BufferedSerialEntry) : (s.deferMultimodal entry).queue = s.queue := by
  unfold deferMultimodal
  split
  · split <;> simp
  · simp

theorem phaseOf_afterTurn_ne {k : ℕ} {t : TurnRun} {failed : Bool} (h : i ≠ j) :
    (s.afterTurn c i k t failed).phaseOf j = s.phaseOf j := by
  unfold afterTurn
  split
  · simp [phaseOf_setPhase_ne _ _ h]
  · rw [phaseOf_work_ne h, phaseOf_settleAll]

theorem originOf_afterTurn {k : ℕ} {t : TurnRun} {failed : Bool} :
    (s.afterTurn c i k t failed).originOf j = s.originOf j := by
  unfold afterTurn
  split
  · rw [originOf_of_core (coreOf_setPhase _ i j _), originOf_of_core (coreOf_setQueue _ j _), originOf_settleAll,
      originOf_settleAll]
  · rw [originOf_of_core coreOf_work, originOf_settleAll]

variable {next : Dispatcher}

theorem turnEnd_eq_some {k : ℕ} {failed : Bool} (h : s.turnEnd k = some failed) :
    ∃ t, s.turns[k]? = some t ∧ t.phase = .ended failed := by
  obtain ⟨t, hk, hended⟩ := Option.bind_eq_some_iff.mp h
  refine ⟨t, hk, ?_⟩
  split at hended
  · rename_i hphase
    rw [hphase, Option.some.inj hended]
  · cases hended

/-! ### What a step of a call can do -/

/-- The awaits at which a call has nothing to do with the buffer, the worker or a turn to come. -/
def calm : CallPhase → Bool
  | .observing | .reporting | .overflowing _ | .working _ | .cancelling _ _ => false
  | _ => true

def enters (call : Call) : CallEvent → Bool
  | .observed wake breakerOpen => call.phase = .observing && wake && !breakerOpen && !reports call.dispatch
  | .queued ok => call.phase = .reporting && ok
  | _ => false

theorem phase_of_enters {call : Call} {event : CallEvent} (h : enters call event = true) :
    call.phase = .observing ∨ call.phase = .reporting := by
  cases event with
  | observed =>
    simp only [enters, Bool.and_eq_true, decide_eq_true_eq] at h
    exact .inl h.1.1.1
  | queued =>
    simp only [enters, Bool.and_eq_true, decide_eq_true_eq] at h
    exact .inr h.1
  | _ => cases h

/-- The steps of a call apart from the queue: what it writes, and the await it goes on to. -/
inductive Goes (s : Dispatcher) (call : Call) : CallEvent → Option RecordKind → CallPhase → Prop
  | skip {breakerOpen} (h : call.phase = .observing) :
      Goes s call (.observed false breakerOpen) (some .attentionSkipped) .skipping
  | skipped {ok} (h : call.phase = .skipping) : Goes s call (.settled ok) none (if ok then .acking else .threw)
  | block (h : call.phase = .observing) : Goes s call (.observed true true) none .breaking
  | blocked {ok} (h : call.phase = .breaking) : Goes s call (.settled ok) (some .turnError) .breakerReply
  | told (h : call.phase = .breakerReply) : Goes s call .sent (some .outbound) .acking
  | report (h : call.phase = .observing) (hreports : reports call.dispatch = true) :
      Goes s call (.observed true false) none .reporting
  | unreported (h : call.phase = .reporting) : Goes s call (.queued false) none .threw
  | overtaken {gen prev} (h : call.phase = .cancelling gen prev) (hended : s.turnEnd prev = some false)
      (hgen : gen ≠ s.queue.cancelGen) : Goes s call .resumed (some (.dropped .queueCancelPrevious)) .superseded
  | interrupted {ok} (h : call.phase = .superseded) : Goes s call (.settled ok) none (.closing false)
  | released {completion} (h : call.phase = .waiting) (hcompletion : call.completion = some completion) :
      Goes s call .resumed none (settledPhase call completion)
  | ran {k failed} (h : call.phase = .running k) (hended : s.turnEnd k = some failed) :
      Goes s call .resumed none (.closing failed)
  | closed {failed} (h : call.phase = .closing failed) : Goes s call .closed none (if failed then .threw else .acking)
  | acked (h : call.phase = .acking) : Goes s call .acked none .returned

/-- The steps of a call: it goes on apart from the queue, is deferred, enters the queue, goes on after an overflow, drains the buffer as the worker, or starts its turn as the newest. -/
inductive CallStep (c : Composer) (s : Dispatcher) (i : TurnId) (call : Call) : CallEvent → Dispatcher → Prop
  | move {event kind phase} (hgoes : Goes s call event kind phase) :
      CallStep c s i call event ((s.note i kind).setPhase i phase)
  | defer (hphase : call.phase = .deferring) :
      CallStep c s i call .acked (((s.write i .inbound).deferMultimodal call.dispatch).setPhase i .deferred)
  | enter {event} (henters : enters call event = true) : CallStep c s i call event (s.enterQueue c i call)
  | overflow {ok d} (hphase : call.phase = .overflowing d) :
      CallStep c s i call (.settled ok) ((s.settle .dropped d).afterPush c i)
  | drain {k t failed} (hphase : call.phase = .working k) (hturn : s.turns[k]? = some t)
      (hended : s.turnEnd k = some failed) : CallStep c s i call .resumed (s.afterTurn c i k t failed)
  | newest {prev} (hphase : call.phase = .cancelling s.queue.cancelGen prev) (hended : s.turnEnd prev = some false) :
      CallStep c s i call .resumed (s.run i call s.queue.cancelGen)

theorem callStep_cases {event : CallEvent} (hnext : s.callStep c i call event = some next) :
    CallStep c s i call event next := by
  cases event with
  | acked =>
    simp only [callStep] at hnext
    split at hnext
    · rename_i hphase
      obtain rfl := Option.some.inj hnext
      exact .defer hphase
    · rename_i hphase
      obtain rfl := Option.some.inj hnext
      exact .move (.acked hphase)
    · cases hnext
  | observed wake breakerOpen =>
    obtain ⟨hphase, rfl⟩ := Option.ite_some_none_eq_some.mp hnext
    unfold afterGate
    split
    · rename_i hwake
      obtain rfl := (Bool.not_eq_true' _).mp hwake
      exact .move (.skip hphase)
    · rename_i hwake
      rw [Bool.not_eq_true, Bool.not_eq_false'] at hwake
      subst hwake
      split
      · rename_i hbreaker
        subst hbreaker
        exact .move (.block hphase)
      · rename_i hbreaker
        rw [Bool.not_eq_true] at hbreaker
        subst hbreaker
        split
        · rename_i hreports
          exact .move (.report hphase hreports)
        · rename_i hreports
          rw [Bool.not_eq_true] at hreports
          exact .enter (by rw [enters, hphase, hreports]; rfl)
  | settled ok =>
    simp only [callStep] at hnext
    split at hnext
    · rename_i hphase
      obtain ⟨-, rfl⟩ := Option.ite_some_none_eq_some.mp hnext
      exact .move (.skipped hphase)
    · rename_i hphase
      obtain rfl := Option.some.inj hnext
      exact .move (.blocked hphase)
    · rename_i hphase
      obtain rfl := Option.some.inj hnext
      exact .overflow hphase
    · rename_i hphase
      obtain rfl := Option.some.inj hnext
      exact .move (.interrupted hphase)
    · cases hnext
  | sent =>
    obtain ⟨hphase, rfl⟩ := Option.ite_some_none_eq_some.mp hnext
    exact .move (.told hphase)
  | queued ok =>
    obtain ⟨hphase, rfl⟩ := Option.ite_some_none_eq_some.mp hnext
    split
    · rename_i hok
      exact .enter (by rw [enters, hphase, hok]; rfl)
    · rename_i hok
      rw [Bool.not_eq_true] at hok
      subst hok
      exact .move (.unreported hphase)
  | resumed =>
    simp only [callStep, resume] at hnext
    split at hnext
    · rename_i hphase
      obtain ⟨t, hturn, hnext⟩ := Option.bind_eq_some_iff.mp hnext
      obtain ⟨failed, hended, rfl⟩ := Option.map_eq_some_iff.mp hnext
      exact .drain hphase hturn hended
    · rename_i hphase
      obtain ⟨completion, hcompletion, rfl⟩ := Option.map_eq_some_iff.mp hnext
      exact .move (.released hphase hcompletion)
    · rename_i gen prev hphase
      obtain ⟨hended, rfl⟩ := Option.ite_some_none_eq_some.mp hnext
      unfold afterCancel
      split
      · rename_i hgen
        subst hgen
        exact .newest hphase hended
      · rename_i hgen
        exact .move (.overtaken hphase hended hgen)
    · rename_i hphase
      obtain ⟨failed, hended, rfl⟩ := Option.map_eq_some_iff.mp hnext
      exact .move (.ran hphase hended)
    · cases hnext
  | closed =>
    simp only [callStep] at hnext
    split at hnext
    · rename_i hphase
      obtain rfl := Option.some.inj hnext
      exact .move (.closed hphase)
    · cases hnext

section

variable {event : CallEvent} {kind : Option RecordKind} {phase : CallPhase}

theorem Goes.calm_or_reporting (h : Goes s call event kind phase) :
    calm phase = true ∨ phase = .reporting ∧ call.phase = .observing := by
  cases h with
  | skipped | closed => exact .inl (by split <;> rfl)
  | report hphase => exact .inr ⟨rfl, hphase⟩
  | released =>
    refine .inl ?_
    unfold settledPhase
    split
    · split <;> rfl
    · rfl
  | _ => exact .inl rfl

theorem Goes.ne_working (h : Goes s call event kind phase) (k : ℕ) : call.phase ≠ .working k := by
  intro hworking
  cases h <;> rename_i hphase <;> simp_all

theorem CallStep.phaseOf_ne (h : CallStep c s i call event next) (hij : i ≠ j) : next.phaseOf j = s.phaseOf j := by
  cases h with
  | move => rw [phaseOf_setPhase_ne _ _ hij, phaseOf_note]
  | defer => rw [phaseOf_setPhase_ne _ _ hij, phaseOf_deferMultimodal, phaseOf_write]
  | enter => exact phaseOf_enterQueue_ne hij
  | overflow => rw [phaseOf_afterPush_ne hij, phaseOf_settle]
  | drain => exact phaseOf_afterTurn_ne hij
  | newest => exact phaseOf_run_ne _ hij

theorem CallStep.originOf (h : CallStep c s i call event next) : next.originOf j = s.originOf j := by
  cases h with
  | move => exact originOf_of_core (by rw [coreOf_setPhase, coreOf_note])
  | defer => exact originOf_of_core (by rw [coreOf_setPhase, coreOf_deferMultimodal, coreOf_write])
  | enter => exact originOf_of_core coreOf_enterQueue
  | overflow => rw [originOf_of_core coreOf_afterPush, originOf_settle]
  | drain => exact originOf_afterTurn
  | newest => exact originOf_of_core (coreOf_run _)

end

theorem merge_of_ne_nil {entries : List BufferedSerialEntry} (h : entries ≠ []) :
    ∃ merged, merge c entries = some merged ∧ (idsOf entries).getLast? = some merged.turnId := by
  cases entries with
  | nil => exact absurd rfl h
  | cons first rest =>
    cases rest with
    | nil => exact ⟨_, rfl, rfl⟩
    | cons second more =>
      refine ⟨_, rfl, ?_⟩
      rw [idsOf, List.getLast?_map, List.getLast?_cons_cons, List.getLast?_eq_some_getLast (List.cons_ne_nil _ _)]
      simp [composedTurn, List.getLastD_eq_getLast?, List.getLast?_eq_some_getLast]

theorem dispatchOf_turnId (entry : BufferedSerialEntry) : (s.dispatchOf c entry).turnId = entry.turnId := by
  unfold dispatchOf
  split
  · rfl
  · obtain ⟨merged, hmerged, hlast⟩ := merge_of_ne_nil (c := c) (List.append_ne_nil_of_right_ne_nil s.deferredMultimodal
      (List.cons_ne_nil entry []))
    rw [hmerged, Option.getD_some]
    rw [idsOf, List.map_append, List.map_singleton, List.getLast?_concat] at hlast
    exact (Option.some.inj hlast).symm

/-- What a message does on its arrival: at most, a call is added that has not got to the queue. -/
inductive Handled (s : Dispatcher) (mode : QueueMode) : Dispatcher → Prop
  | skipped : Handled s mode s
  | added {next : Dispatcher} {call : Call} (hphase : call.phase = .deferring ∨ call.phase = .observing)
      (hmode : call.mode = mode) (hrewake : call.rewake = false) (hid : call.dispatch.turnId = s.calls.length)
      (hcompletion : call.completion = none) (hturns : next.turns = s.turns) (hqueue : next.queue = s.queue)
      (hlength : next.calls.length = s.calls.length + 1)
      (hphases : ∀ j, next.phaseOf j = if j = s.calls.length then some call.phase else s.phaseOf j)
      (hcores : ∀ j, next.coreOf j =
        if j = s.calls.length then some { call with phase := .returned, records := [] } else s.coreOf j) :
      Handled s mode next

theorem Handled.turns_eq {mode : QueueMode} (h : Handled s mode next) : next.turns = s.turns := by
  cases h with
  | skipped => rfl
  | added _ _ _ _ _ hturns => exact hturns

theorem Handled.queue_eq {mode : QueueMode} (h : Handled s mode next) : next.queue = s.queue := by
  cases h with
  | skipped => rfl
  | added _ _ _ _ _ _ hqueue => exact hqueue

theorem handled_arrive (entry : BufferedSerialEntry) (mode : QueueMode) (hid : entry.turnId = s.calls.length) :
    Handled s mode (s.arrive c entry mode) := by
  have hlength : ((s.writeAll (idsOf s.deferredMultimodal) (.dropped .batchMerged)).setDeferred []).calls.length =
      s.calls.length := length_writeAll s _ _
  have hphases := fun j call => phaseOf_addCall
    ((s.writeAll (idsOf s.deferredMultimodal) (.dropped .batchMerged)).setDeferred []) j call
  have hcores := fun j call => coreOf_addCall
    ((s.writeAll (idsOf s.deferredMultimodal) (.dropped .batchMerged)).setDeferred []) j call
  simp only [hlength, phaseOf_setDeferred, phaseOf_writeAll, coreOf_setDeferred, coreOf_writeAll] at hphases hcores
  refine .added (.inr rfl) rfl rfl ((dispatchOf_turnId entry).trans hid) rfl (by simp [arrive]) (by simp [arrive]) ?_
    (fun j => hphases j _) fun j => hcores j _
  rw [arrive, addCall, List.length_append, hlength]
  rfl

theorem handle_cases (route : GatewayRoute) (msg : GatewayInboundMessage) (channel : Option ChannelAdapter) :
    Handled s (resolveQueueMode route msg.conversation.kind) (s.handle c route msg channel) := by
  cases channel with
  | none => exact .skipped
  | some channel =>
    simp only [handle]
    split
    · exact .skipped
    · split
      · exact .skipped
      · split
        · exact .added (.inl rfl) rfl rfl rfl rfl rfl rfl List.length_append (fun j => phaseOf_addCall s j _)
            fun j => coreOf_addCall s j _
        · exact handled_arrive _ _ rfl

theorem afterPush_of_length (h : s.queue.serialBuffer.length ≤ MAX_BATCH_BUFFER_ENTRIES) :
    s.afterPush c i = if s.queue.serialWorkerActive then s.setPhase i .waiting else s.work c i := by
  unfold afterPush
  split
  · rename_i hbuffer
    rw [hbuffer] at h
    rw [if_neg (Nat.not_lt.mpr h)]
  · rfl

theorem work_of_nil (h : s.queue.serialBuffer = []) :
    s.work c i = (s.setQueue (s.queue.setWorker false)).setPhase i .waiting := by
  rw [work, h]
  rfl

theorem work_of_merge {merged : BufferedSerialEntry} (h : merge c s.queue.serialBuffer = some merged) :
    s.work c i = (((s.setQueue (s.queue.setWorker true)).writeAll (idsOf s.queue.serialBuffer.dropLast)
      (.dropped .batchMerged)).startTurn merged (idsOf s.queue.serialBuffer) none).setPhase i
        (.working s.turns.length) := by
  rw [work, h]

variable {timer : ParkTimer}

theorem phaseOf_fire_ne (h : j ≠ s.calls.length) : (s.fire c timer).phaseOf j = s.phaseOf j := by
  rw [fire, phaseOf_runSerial_ne (Ne.symm h), phaseOf_setQueue, phaseOf_addCall, if_neg h]

theorem coreOf_fire : (s.fire c timer).coreOf j =
    if j = s.calls.length then some { s.rewakeCall timer with phase := .returned, records := [] } else s.coreOf j := by
  rw [fire, coreOf_runSerial, coreOf_setQueue, coreOf_addCall]

theorem fire_of_inactive (timer : ParkTimer) (hbuffer : s.queue.serialBuffer = []) (hinactive : s.queue.serialWorkerActive = false) :
    s.fire c timer =
      (((((((s.addCall (s.rewakeCall timer)).setQueue (s.queue.elapse timer)).setQueue
        ((s.queue.elapse timer).push s.calls.length (s.rewakeCall timer))).setPhase s.calls.length .waiting).setQueue
          (((s.queue.elapse timer).push s.calls.length (s.rewakeCall timer)).setWorker true)).startTurn
            (s.rewakeCall timer).dispatch [s.calls.length] none).setPhase s.calls.length
              (.working s.turns.length)) := by
  have hpush : ((s.queue.elapse timer).push s.calls.length (s.rewakeCall timer)).serialBuffer =
      [(s.rewakeCall timer).dispatch] := by
    simp [QueueState.push, QueueState.elapse, hbuffer]
  have hworker : ((s.queue.elapse timer).push s.calls.length (s.rewakeCall timer)).serialWorkerActive = false := by
    simp [QueueState.push, QueueState.elapse, hinactive]
  have hmerge : merge c [(s.rewakeCall timer).dispatch] = some (s.rewakeCall timer).dispatch := rfl
  rw [fire, runSerial, queue_setQueue, afterPush_of_length]
  · rw [queue_setPhase, queue_setQueue, hworker, if_neg (by decide),
      work_of_merge (show merge c _ = some (s.rewakeCall timer).dispatch by
        rw [queue_setPhase, queue_setQueue, hpush, hmerge]), queue_setPhase, queue_setQueue, hpush]
    rfl
  · rw [queue_setPhase, queue_setQueue, hpush]
    exact Nat.le_add_left 1 39

theorem turns_fire_of_inactive (timer : ParkTimer) (hbuffer : s.queue.serialBuffer = []) (hinactive : s.queue.serialWorkerActive = false) :
    (s.fire c timer).turns = s.turns ++ [{
      entry := (s.rewakeCall timer).dispatch, members := [s.calls.length], since := s.queue.joined }] := by
  rw [fire_of_inactive timer hbuffer hinactive, turns_setPhase, turns_startTurn, queue_setQueue, QueueState.push,
    QueueState.supersedePendingPark_of_none rfl]
  rfl

theorem queue_fire_of_inactive (timer : ParkTimer) (hbuffer : s.queue.serialBuffer = []) (hinactive : s.queue.serialWorkerActive = false) :
    (s.fire c timer).queue =
      { s.queue.elapse timer with
        serialOrder := s.queue.serialOrder ++ [s.calls.length]
        serialBuffer := []
        serialWorkerActive := true
        current := some s.turns.length } := by
  rw [fire_of_inactive timer hbuffer hinactive, queue_setPhase, queue_startTurn, queue_setQueue, QueueState.push,
    QueueState.supersedePendingPark_of_none rfl]
  rfl

theorem phaseOf_fire_of_inactive (timer : ParkTimer) (hbuffer : s.queue.serialBuffer = []) (hinactive : s.queue.serialWorkerActive = false) :
    (s.fire c timer).phaseOf s.calls.length = some (.working s.turns.length) := by
  rw [fire_of_inactive timer hbuffer hinactive]
  refine phaseOf_setPhase_self _ _ (show _ = some CallPhase.waiting from ?_)
  rw [phaseOf_startTurn, phaseOf_setQueue]
  refine phaseOf_setPhase_self _ _ (show _ = some CallPhase.waiting from ?_)
  rw [phaseOf_setQueue, phaseOf_setQueue, phaseOf_addCall, if_pos rfl]
  rfl

end

end Dispatcher

/-- A composer that adds nothing to a text. -/
def plainComposer : Composer where
  sanitizeUntrustedContent := id
  sanitizeSenderName := id
  preview := id
  header _ := ""
  footer _ _ := ""
  batchHeader _ _ := ""
  batchFooter _ _ _ := ""
  entryTag _ := ""
  entryEnd _ := ""
  replyDeliveryHint _ _ := ""

def plainPolicy : TurnPolicy where
  maxResumeInputTokens := 0
  maxResumeTurns := 0
  looksLikeRuntimeAuthFailure _ := false
  looksLikeRecoverableSessionFailure _ := false
  looksLikeTransientRuntimeError _ := false
  looksLikeUsageLimit _ := false
  parseResponseDecision _ _ := some none

def plainMessage (kind : ConversationKind) (id : String) : GatewayInboundMessage where
  id := id
  channel := "botcord"
  accountId := "ag_0"
  conversation := { id := "rm_1", kind }
  sender := { id := "ag_1", kind := .agent }
  text := "hello"
  raw := some { hubMsgId := id, text := some "hello", roomId := some "rm_1" }

/-- The arrival of a message, as the call `i`, up to the queue. -/
def arrival (kind : ConversationKind) (i : TurnId) (id : String) : List DispatcherAction :=
  [.handle { runtime := "claude-code" } (plainMessage kind id) (some { id := "botcord", type := "botcord" }),
    .call i (.observed true false)]

/-- Events of the turn `k` that ask for no wait. -/
def turnEvents (k : ℕ) (events : List TurnEvent) : List DispatcherAction := events.map fun event => .turn k event {}

end BotCord.Gateway
