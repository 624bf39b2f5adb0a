import BotCord.Foundation.Run
import BotCord.Foundation.Table
import BotCord.Schedules.Schedule
import Mathlib.Data.List.Sort

/-!
# Workers and owners over one table of schedules

`process_due_schedules_once` and `patch_self_schedule`, a database statement or a commit a step, in any number of sessions. An `UPDATE` and the commit after it are one step, since the row is locked in between; everything else, the dispatch above all, leaves any time between two steps. A session keeps the objects it loaded (`expire_on_commit=False`), and a flush writes, by primary key, the columns whose value is no longer the loaded one.

`computed` is no table: it is the history of the times that `compute_next_fire_at` gave a schedule that is then written, and no function reads it. Columns that neither party reads (names, owners, creation times) and the table of dispatched runs are left out.
-/

namespace BotCord.Schedules

abbrev ScheduleId := String

inductive SessionPolicy
  | freshPerRun | reusePerSchedule
deriving DecidableEq

structure AgentSchedule where
  id : ScheduleId
  agentId : String
  enabled : Bool := true
  scheduleJson : Schedule
  /-- The message of the payload. -/
  payloadJson : String
  sessionPolicy : Option SessionPolicy := none
  sessionEpoch : ℕ := 1
  nextFireAt : Option Time := none
  lastFireAt : Option Time := none
  lockedUntil : Option Time := none
  lockedBy : Option String := none

def leaseLength : Time := 60 * 1000000

def AgentSchedule.Unlocked (row : AgentSchedule) (now : Time) : Prop := ∀ until_ ∈ row.lockedUntil, until_ < now
deriving Decidable

def AgentSchedule.Due (row : AgentSchedule) (now : Time) : Prop :=
  row.enabled = true ∧ (∃ time ∈ row.nextFireAt, time ≤ now) ∧ row.Unlocked now
deriving Decidable

/-- `order_by(next_fire_at, id)` -/
def AgentSchedule.Before (a b : AgentSchedule) : Prop :=
  a.nextFireAt.getD 0 < b.nextFireAt.getD 0 ∨ a.nextFireAt.getD 0 = b.nextFireAt.getD 0 ∧ a.id ≤ b.id

instance : DecidableRel AgentSchedule.Before := fun _ _ => inferInstanceAs (Decidable (_ ∨ _ ∧ _))

def dueSchedules (rows : List AgentSchedule) (now : Time) (limit : ℕ) : List AgentSchedule :=
  ((rows.filter fun row => row.Due now).insertionSort AgentSchedule.Before).take limit

/-- What the leasing `UPDATE` asks of the row of a candidate. -/
def AgentSchedule.Leasable (candidate row : AgentSchedule) (now : Time) : Prop :=
  row.id = candidate.id ∧ row.enabled = true ∧ row.nextFireAt = candidate.nextFireAt ∧ row.Unlocked now
deriving Decidable

def AgentSchedule.lease (row : AgentSchedule) (now : Time) (worker : String) : AgentSchedule :=
  { row with lockedUntil := some (now + leaseLength), lockedBy := some worker }

def AgentSchedule.fired (schedule : AgentSchedule) (firedAt nextFireAt : Time) : AgentSchedule :=
  { schedule with lastFireAt := some firedAt, nextFireAt := some nextFireAt, lockedUntil := none, lockedBy := none }

structure SchedulePatchBody where
  enabled : Option Bool := none
  schedule : Option Schedule := none
  payload : Option String := none
  sessionPolicy : Option SessionPolicy := none

def SchedulePatchBody.scheduleChanged (body : SchedulePatchBody) : Prop :=
  body.schedule.isSome = true ∨ body.enabled.isSome = true
deriving Decidable

def legacySessionPolicy : SessionPolicy := .reusePerSchedule

def SchedulePatchBody.sessionChanged (body : SchedulePatchBody) (row : AgentSchedule) : Prop :=
  (∃ schedule ∈ body.schedule, schedule ≠ row.scheduleJson) ∨ (∃ payload ∈ body.payload, payload ≠ row.payloadJson) ∨
    ∃ policy ∈ body.sessionPolicy, policy ≠ row.sessionPolicy.getD legacySessionPolicy
deriving Decidable

/-- A row that names no policy keeps naming none when the legacy one is asked for. -/
def patchedPolicy (row : AgentSchedule) : Option SessionPolicy → Option SessionPolicy
  | none => row.sessionPolicy
  | some policy =>
    if row.sessionPolicy.isSome ∨ policy ≠ legacySessionPolicy then some policy else row.sessionPolicy

/-- The row object with the body's values, before its next firing is computed. -/
def AgentSchedule.edit (row : AgentSchedule) (body : SchedulePatchBody) : AgentSchedule :=
  { row with
    scheduleJson := body.schedule.getD row.scheduleJson, payloadJson := body.payload.getD row.payloadJson
    sessionPolicy := patchedPolicy row body.sessionPolicy, enabled := body.enabled.getD row.enabled
    sessionEpoch :=
      if body.sessionChanged row then (if row.sessionEpoch = 0 then 1 else row.sessionEpoch) + 1 else row.sessionEpoch }

def nextFireOf (zones : Zones) (row : AgentSchedule) (now : Time) : Except HttpError (Option Time) :=
  if row.enabled then (computeNextFireAt zones row.scheduleJson now).map some else .ok none

def patchSchedule (zones : Zones) (row : AgentSchedule) (body : SchedulePatchBody) (now : Time) :
    Except HttpError AgentSchedule :=
  if body.scheduleChanged then
    (nextFireOf zones (row.edit body) now).map fun nextFireAt =>
      { row.edit body with nextFireAt, lockedUntil := none, lockedBy := none }
  else .ok (row.edit body)

/-- A column of an `UPDATE` by primary key: set if the object's value is not the loaded one. -/
def flushed {α : Type} [DecidableEq α] (loaded current committed : α) : α :=
  if current = loaded then committed else current

theorem flushed_of_ne {α : Type} [DecidableEq α] {loaded current committed : α} (h : current ≠ loaded) :
    flushed loaded current committed = current := if_neg h

@[simp] theorem flushed_self {α : Type} [DecidableEq α] (loaded committed : α) :
    flushed loaded loaded committed = committed := if_pos rfl

def AgentSchedule.flushOver (loaded current row : AgentSchedule) : AgentSchedule where
  id := row.id
  agentId := row.agentId
  enabled := flushed loaded.enabled current.enabled row.enabled
  scheduleJson := flushed loaded.scheduleJson current.scheduleJson row.scheduleJson
  payloadJson := flushed loaded.payloadJson current.payloadJson row.payloadJson
  sessionPolicy := flushed loaded.sessionPolicy current.sessionPolicy row.sessionPolicy
  sessionEpoch := flushed loaded.sessionEpoch current.sessionEpoch row.sessionEpoch
  nextFireAt := flushed loaded.nextFireAt current.nextFireAt row.nextFireAt
  lastFireAt := flushed loaded.lastFireAt current.lastFireAt row.lastFireAt
  lockedUntil := flushed loaded.lockedUntil current.lockedUntil row.lockedUntil
  lockedBy := flushed loaded.lockedBy current.lockedBy row.lockedBy

inductive Phase
  | idle
  | sweeping (now : Time) (worker : String) (candidates : List AgentSchedule)
  | dispatching (now : Time) (worker : String) (loaded : AgentSchedule) (candidates : List AgentSchedule)
  | patching (loaded : AgentSchedule)

/-- A time that a row's next firing was computed to be, and the schedule it was computed from. -/
structure Computed where
  id : ScheduleId
  schedule : Schedule
  time : Time

structure State where
  rows : List AgentSchedule
  phase : ℕ → Phase
  computed : List Computed

inductive Action
  | select (i : ℕ) (worker : String) (now : Time) (limit : ℕ)
  | lease (i : ℕ)
  /-- The dispatch is over: the times the worker reads after it, the second as the base of the next firing. -/
  | finish (i : ℕ) (firedAt base : Time)
  | load (i : ℕ) (scheduleId : ScheduleId)
  | patch (i : ℕ) (body : SchedulePatchBody) (now : Time)
  /-- An exception ends the session; nothing it has not committed stays. -/
  | fail (i : ℕ)

namespace State

variable (s : State)

def goto (i : ℕ) (p : Phase) : State := { s with phase := Function.update s.phase i p }

@[simp] theorem goto_phase_self (i : ℕ) (p : Phase) : (s.goto i p).phase i = p := Function.update_self ..

theorem goto_phase_of_ne {i j : ℕ} (p : Phase) (h : j ≠ i) : (s.goto i p).phase j = s.phase j :=
  Function.update_of_ne h ..

def computing (id : ScheduleId) (schedule : Schedule) (time : Time) : State :=
  { s with computed := ⟨id, schedule, time⟩ :: s.computed }

def flush (loaded current : AgentSchedule) : State :=
  { s with rows := Table.update (·.id = loaded.id) (loaded.flushOver current) s.rows }

def leaseNext (i : ℕ) (now : Time) (worker : String) : List AgentSchedule → State
  | [] => s.goto i .idle
  | candidate :: rest =>
    if ∃ row ∈ s.rows, candidate.Leasable row now then
      let leased := { s with rows := Table.update (candidate.Leasable · now) (·.lease now worker) s.rows }
      -- the object in the session is the candidate, whatever was committed since it was loaded
      if candidate.nextFireAt = none then leased.goto i (.sweeping now worker rest)
      else leased.goto i (.dispatching now worker (candidate.lease now worker) rest)
    else s.goto i (.sweeping now worker rest)

def finishDispatch (zones : Zones) (i : ℕ) (now : Time) (worker : String) (loaded : AgentSchedule)
    (rest : List AgentSchedule) (firedAt base : Time) : State :=
  match computeNextFireAt zones loaded.scheduleJson base with
  | .error _ => s.goto i .idle
  | .ok time =>
    (((s.computing loaded.id loaded.scheduleJson time).flush loaded (loaded.fired firedAt time))).goto i
      (.sweeping now worker rest)

def computingPatch (body : SchedulePatchBody) (current : AgentSchedule) : State :=
  if body.scheduleChanged then
    match current.nextFireAt with
    | some time => s.computing current.id current.scheduleJson time
    | none => s
  else s

def commitPatch (zones : Zones) (i : ℕ) (loaded : AgentSchedule) (body : SchedulePatchBody) (now : Time) : State :=
  match patchSchedule zones loaded body now with
  | .error _ => s.goto i .idle
  | .ok current => ((s.computingPatch body current).flush loaded current).goto i .idle

def step (zones : Zones) : Action → Option State
  | .select i worker now limit =>
    match s.phase i with
    | .idle => some (s.goto i (.sweeping now worker (dueSchedules s.rows now limit)))
    | _ => none
  | .lease i =>
    match s.phase i with
    | .sweeping now worker candidates => some (s.leaseNext i now worker candidates)
    | _ => none
  | .finish i firedAt base =>
    match s.phase i with
    | .dispatching now worker loaded rest => some (s.finishDispatch zones i now worker loaded rest firedAt base)
    | _ => none
  | .load i scheduleId =>
    match s.phase i with
    | .idle => (s.rows.find? (·.id = scheduleId)).map fun row => s.goto i (.patching row)
    | _ => none
  | .patch i body now =>
    match s.phase i with
    | .patching loaded => some (s.commitPatch zones i loaded body now)
    | _ => none
  | .fail i => some (s.goto i .idle)

end State

def schedules (zones : Zones) : System State Action where
  step s a := s.step zones a

end BotCord.Schedules
