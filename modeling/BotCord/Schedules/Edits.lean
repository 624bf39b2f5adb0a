import BotCord.Schedules.Workers

/-!
# When an edit survives the workers

A worker computes the next firing from the object it loaded before the dispatch, and a patch from the row it loaded before its commit. What either writes fits the committed row as long as the columns it read and does not write are still as it loaded them. A patch during a dispatch is where it goes wrong.
-/

namespace BotCord.Schedules

/-- The next firing of an enabled schedule was computed from what it says now, and a disabled one has none. -/
structure AgentSchedule.Planned (computed : List Computed) (row : AgentSchedule) : Prop where
  enabled : row.enabled = true → ∃ c ∈ computed, c.id = row.id ∧ c.schedule = row.scheduleJson ∧
    row.nextFireAt = some c.time
  disabled : row.enabled = false → row.nextFireAt = none

/-- The columns that a flush takes from an object and does not write are in the row as they were loaded. -/
structure Undisturbed (loaded current row : AgentSchedule) : Prop where
  schedule : current.enabled = true → current.scheduleJson = loaded.scheduleJson →
    row.scheduleJson = loaded.scheduleJson
  enabled : current.enabled = true ∨ current.scheduleJson ≠ loaded.scheduleJson → current.enabled = loaded.enabled →
    row.enabled = loaded.enabled
  nextFireAt : current.scheduleJson ≠ loaded.scheduleJson → current.nextFireAt = loaded.nextFireAt →
    row.nextFireAt = loaded.nextFireAt

instance (loaded current row : AgentSchedule) : Decidable (Undisturbed loaded current row) :=
  decidable_of_iff
    ((current.enabled = true → current.scheduleJson = loaded.scheduleJson → row.scheduleJson = loaded.scheduleJson) ∧
      (current.enabled = true ∨ current.scheduleJson ≠ loaded.scheduleJson → current.enabled = loaded.enabled →
        row.enabled = loaded.enabled) ∧
      (current.scheduleJson ≠ loaded.scheduleJson → current.nextFireAt = loaded.nextFireAt →
        row.nextFireAt = loaded.nextFireAt))
    ⟨fun ⟨a, b, c⟩ => ⟨a, b, c⟩, fun ⟨a, b, c⟩ => ⟨a, b, c⟩⟩

def Phase.dispatched : Phase → Option AgentSchedule
  | .dispatching _ _ loaded _ => some loaded
  | _ => none

def Phase.patched : Phase → Option AgentSchedule
  | .patching loaded => some loaded
  | _ => none

/-- No edit that this commit does not know of was committed since its session loaded the row. -/
def Unraced (zones : Zones) (s : State) : Action → Prop
  | .finish i _ _ => ∀ loaded ∈ (s.phase i).dispatched, ∀ row ∈ s.rows, row.id = loaded.id →
      row.scheduleJson = loaded.scheduleJson ∧ row.enabled = loaded.enabled
  | .patch i body now => ∀ loaded ∈ (s.phase i).patched, body.scheduleChanged →
      ∀ current ∈ (patchSchedule zones loaded body now).toOption, ∀ row ∈ s.rows, row.id = loaded.id →
        Undisturbed loaded current row
  | .select _ _ _ _ | .lease _ | .load _ _ | .fail _ => True

instance (zones : Zones) (s : State) : DecidablePred (Unraced zones s) := fun _ => by
  unfold Unraced
  split <;> infer_instance

section Flush

variable {log log' : List Computed} {loaded current row row' : AgentSchedule}

theorem AgentSchedule.Planned.mono (h : row.Planned log) (hlog : log ⊆ log') : row.Planned log' :=
  ⟨fun henabled => (h.enabled henabled).imp fun _ hc => ⟨hlog hc.1, hc.2⟩, h.disabled⟩

theorem AgentSchedule.Planned.congr (h : row.Planned log) (hid : row'.id = row.id) (henabled : row'.enabled = row.enabled)
    (hschedule : row'.scheduleJson = row.scheduleJson) (hnext : row'.nextFireAt = row.nextFireAt) :
    row'.Planned log := by
  refine ⟨fun h' => ?_, fun h' => ?_⟩
  · rw [hid, hschedule, hnext]
    exact h.enabled (henabled ▸ h')
  · rw [hnext]
    exact h.disabled (henabled ▸ h')

theorem AgentSchedule.Planned.enabled_of_some (h : row.Planned log) {time : Time} (hnext : row.nextFireAt = some time) :
    row.enabled = true := by
  by_contra hdisabled
  rw [h.disabled (Bool.eq_false_iff.mpr hdisabled)] at hnext
  cases hnext

theorem flushOver_planned_enabled (hloaded : loaded.Planned log) (hcurrent : current.Planned log)
    (hrow : row.Planned log) (hids : row.id = loaded.id ∧ current.id = loaded.id)
    (h : Undisturbed loaded current row) (henabled : current.enabled = true) :
    (loaded.flushOver current row).Planned log := by
  obtain ⟨c, hc, hcid, hcschedule, hctime⟩ := hcurrent.enabled henabled
  have hflag : (loaded.flushOver current row).enabled = true := by
    by_cases hsame : current.enabled = loaded.enabled
    · simp only [AgentSchedule.flushOver, flushed, hsame, if_true, h.enabled (.inl henabled) hsame]
      exact hsame ▸ henabled
    · exact (flushed_of_ne hsame).trans henabled
  have hschedule : (loaded.flushOver current row).scheduleJson = current.scheduleJson := by
    by_cases hsame : current.scheduleJson = loaded.scheduleJson
    · simp only [AgentSchedule.flushOver, flushed, hsame, if_true, h.schedule henabled hsame]
    · exact flushed_of_ne hsame
  refine ⟨fun _ => ?_, fun hdisabled => ?_⟩
  · rw [hschedule]
    by_cases hwritten : current.nextFireAt = loaded.nextFireAt
    · have hkept : (loaded.flushOver current row).nextFireAt = row.nextFireAt := by
        simp [AgentSchedule.flushOver, flushed, hwritten]
      rw [hkept]
      by_cases hsame : current.scheduleJson = loaded.scheduleJson
      · -- nothing but the flag may be written, so the committed row speaks of the same schedule
        have hwas : loaded.enabled = true := hloaded.enabled_of_some (hwritten.symm.trans hctime)
        have hcommitted : row.enabled = true := (h.enabled (.inl henabled) (henabled.trans hwas.symm)).trans hwas
        obtain ⟨c', hc', hcid', hcschedule', hctime'⟩ := hrow.enabled hcommitted
        exact ⟨c', hc', hcid', hcschedule'.trans ((h.schedule henabled hsame).trans hsame.symm), hctime'⟩
      · exact ⟨c, hc, hcid.trans (hids.2.trans hids.1.symm), hcschedule,
          (h.nextFireAt hsame hwritten).trans (hwritten.symm.trans hctime)⟩
    · exact ⟨c, hc, hcid.trans (hids.2.trans hids.1.symm), hcschedule, (flushed_of_ne hwritten).trans hctime⟩
  · rw [hflag] at hdisabled
    cases hdisabled

theorem flushOver_planned_disabled (hloaded : loaded.Planned log) (hcurrent : current.Planned log)
    (hrow : row.Planned log) (h : Undisturbed loaded current row) (hdisabled : current.enabled = false) :
    (loaded.flushOver current row).Planned log := by
  have hnone := hcurrent.disabled hdisabled
  by_cases hflag : current.enabled = loaded.enabled
  · -- it was disabled when it was loaded, so its next firing is not written
    have hwas : loaded.nextFireAt = none := hloaded.disabled (hflag ▸ hdisabled)
    have henabled : (loaded.flushOver current row).enabled = row.enabled := by
      simp [AgentSchedule.flushOver, flushed, hflag]
    have hnext : (loaded.flushOver current row).nextFireAt = row.nextFireAt := by
      simp [AgentSchedule.flushOver, flushed, hnone, hwas]
    by_cases hschedule : current.scheduleJson = loaded.scheduleJson
    · have hkept : (loaded.flushOver current row).scheduleJson = row.scheduleJson := by
        simp [AgentSchedule.flushOver, flushed, hschedule]
      exact hrow.congr rfl henabled hkept hnext
    · have hcommitted : row.enabled = false := (h.enabled (.inr hschedule) hflag).trans (hflag ▸ hdisabled)
      refine ⟨fun htrue => ?_, fun _ => hnext.trans (hrow.disabled hcommitted)⟩
      rw [henabled, hcommitted] at htrue
      cases htrue
  · have hwas : loaded.enabled = true := by
      cases hloadedFlag : loaded.enabled with
      | true => rfl
      | false => exact absurd (hdisabled.trans hloadedFlag.symm) hflag
    obtain ⟨c, -, -, -, htime⟩ := hloaded.enabled hwas
    have hchanged : current.nextFireAt ≠ loaded.nextFireAt := by
      rw [hnone, htime]
      simp
    refine ⟨fun htrue => ?_, fun _ => (flushed_of_ne hchanged).trans hnone⟩
    rw [show (loaded.flushOver current row).enabled = false from (flushed_of_ne hflag).trans hdisabled] at htrue
    cases htrue

theorem flushOver_planned (hloaded : loaded.Planned log) (hcurrent : current.Planned log) (hrow : row.Planned log)
    (hids : row.id = loaded.id ∧ current.id = loaded.id) (h : Undisturbed loaded current row) :
    (loaded.flushOver current row).Planned log := by
  cases henabled : current.enabled with
  | true => exact flushOver_planned_enabled hloaded hcurrent hrow hids h henabled
  | false => exact flushOver_planned_disabled hloaded hcurrent hrow h henabled

end Flush

def Phase.objects : Phase → List AgentSchedule
  | .idle => []
  | .sweeping _ _ candidates => candidates
  | .dispatching _ _ loaded candidates => loaded :: candidates
  | .patching loaded => [loaded]

/-- What every commit keeps, in the table and in the objects of the sessions. -/
structure Kept (zones : Zones) (s : State) : Prop where
  rows : ∀ row ∈ s.rows, row.Planned s.computed
  objects : ∀ i, ∀ object ∈ (s.phase i).objects, object.Planned s.computed
  dispatched : ∀ i, ∀ loaded ∈ (s.phase i).dispatched, loaded.nextFireAt.isSome
  computed : ∀ c ∈ s.computed, ∃ base, computeNextFireAt zones c.schedule base = .ok c.time

variable {zones : Zones} {s : State} {i : ℕ}

variable {now : Time}

theorem mem_dueSchedules {rows : List AgentSchedule} {limit : ℕ} {row : AgentSchedule}
    (h : row ∈ dueSchedules rows now limit) : row ∈ rows := by
  have hsorted := List.mem_of_mem_take h
  rw [List.mem_insertionSort] at hsorted
  exact (List.mem_filter.mp hsorted).1

theorem Kept.goto (h : Kept zones s) {p : Phase} (hobjects : ∀ object ∈ p.objects, object.Planned s.computed)
    (hdispatched : ∀ loaded ∈ p.dispatched, loaded.nextFireAt.isSome) : Kept zones (s.goto i p) := by
  refine ⟨h.rows, fun j => ?_, fun j => ?_, h.computed⟩
  · by_cases hj : j = i
    · rw [hj, State.goto_phase_self]
      exact hobjects
    · rw [State.goto_phase_of_ne _ _ hj]
      exact h.objects j
  · by_cases hj : j = i
    · rw [hj, State.goto_phase_self]
      exact hdispatched
    · rw [State.goto_phase_of_ne _ _ hj]
      exact h.dispatched j

theorem Kept.idle (h : Kept zones s) : Kept zones (s.goto i .idle) :=
  h.goto (by simp [Phase.objects]) (by simp [Phase.dispatched])

variable {worker : String}

theorem Kept.sweeping (h : Kept zones s) {candidates : List AgentSchedule}
    (hcandidates : ∀ candidate ∈ candidates, candidate.Planned s.computed) :
    Kept zones (s.goto i (.sweeping now worker candidates)) :=
  h.goto hcandidates (by simp [Phase.dispatched])

theorem Kept.computing (h : Kept zones s) {id : ScheduleId} {schedule : Schedule} {time base : Time}
    (htime : computeNextFireAt zones schedule base = .ok time) : Kept zones (s.computing id schedule time) := by
  have hlog : s.computed ⊆ (s.computing id schedule time).computed := List.subset_cons_self ..
  refine ⟨fun row hrow => (h.rows row hrow).mono hlog, fun j object hobject => (h.objects j object hobject).mono hlog,
    h.dispatched, fun c hc => ?_⟩
  rcases List.mem_cons.mp hc with rfl | hold
  · exact ⟨base, htime⟩
  · exact h.computed c hold

theorem Kept.update (h : Kept zones s) {p : AgentSchedule → Prop} [DecidablePred p] {f : AgentSchedule → AgentSchedule}
    (hf : ∀ row ∈ s.rows, p row → (f row).Planned s.computed) :
    Kept zones { s with rows := Table.update p f s.rows } := by
  refine ⟨fun row hrow => ?_, h.objects, h.dispatched, h.computed⟩
  obtain ⟨old, hold, rfl⟩ := Table.mem_update.mp hrow
  split
  · exact hf old hold ‹_›
  · exact h.rows old hold

theorem AgentSchedule.Planned.lease {log : List Computed} {row : AgentSchedule} (h : row.Planned log) (now : Time)
    (worker : String) : (row.lease now worker).Planned log := h.congr rfl rfl rfl rfl

theorem Kept.leaseNext (h : Kept zones s) {candidates : List AgentSchedule}
    (hcandidates : ∀ candidate ∈ candidates, candidate.Planned s.computed) :
    Kept zones (s.leaseNext i now worker candidates) := by
  cases candidates with
  | nil => exact h.idle
  | cons candidate rest =>
    have hrest : ∀ other ∈ rest, other.Planned s.computed := fun other hother =>
      hcandidates other (List.mem_cons_of_mem _ hother)
    rw [State.leaseNext]
    split
    · have hleased : Kept zones
          { s with rows := Table.update (candidate.Leasable · now) (·.lease now worker) s.rows } :=
        h.update fun row hrow _ => (h.rows row hrow).lease now worker
      dsimp only
      split
      · exact hleased.sweeping hrest
      · rename_i hnext
        refine hleased.goto ?_ ?_
        · exact List.forall_mem_cons.mpr
            ⟨(hcandidates candidate List.mem_cons_self).lease now worker, hrest⟩
        · rintro _ ⟨⟩
          exact Option.isSome_iff_ne_none.mpr hnext
    · exact h.sweeping hrest

theorem Kept.finishDispatch (h : Kept zones s) {loaded : AgentSchedule}
    {rest : List AgentSchedule} {firedAt base : Time} (hphase : s.phase i = .dispatching now worker loaded rest)
    (hunraced : Unraced zones s (.finish i firedAt base)) :
    Kept zones (s.finishDispatch zones i now worker loaded rest firedAt base) := by
  have hobjects := h.objects i
  have hdispatched := h.dispatched i
  simp only [Unraced, hphase, Phase.dispatched, Option.mem_some_iff, forall_eq'] at hobjects hdispatched hunraced
  obtain ⟨hloaded, hrest⟩ := List.forall_mem_cons.mp hobjects
  obtain ⟨old, hold⟩ := Option.isSome_iff_exists.mp hdispatched
  rw [State.finishDispatch]
  cases htime : computeNextFireAt zones loaded.scheduleJson base with
  | error e => exact h.idle
  | ok time =>
    have hcomputing : Kept zones (s.computing loaded.id loaded.scheduleJson time) := h.computing htime
    have hlog : s.computed ⊆ (s.computing loaded.id loaded.scheduleJson time).computed := List.subset_cons_self ..
    have hcurrent : (loaded.fired firedAt time).Planned (s.computing loaded.id loaded.scheduleJson time).computed := by
      refine ⟨fun _ => ⟨_, List.mem_cons_self, rfl, rfl, rfl⟩, fun hdisabled => ?_⟩
      have hflag := hloaded.enabled_of_some hold
      exact absurd (hflag.symm.trans hdisabled) (by simp)
    refine (hcomputing.update fun row hrow hid => ?_).sweeping fun other hother => (hrest other hother).mono hlog
    obtain ⟨hschedule, henabled⟩ := hunraced row hrow hid
    exact flushOver_planned (hloaded.mono hlog) hcurrent (hcomputing.rows row hrow) ⟨hid, rfl⟩
      ⟨fun _ _ => hschedule, fun _ _ => henabled, fun hchanged => absurd rfl hchanged⟩

variable {body : SchedulePatchBody}

theorem patchSchedule_ok {row current : AgentSchedule}
    (h : patchSchedule zones row body now = .ok current) :
    current.id = row.id ∧ (body.scheduleChanged → nextFireOf zones current now = .ok current.nextFireAt) ∧
      (¬ body.scheduleChanged → current.enabled = row.enabled ∧ current.scheduleJson = row.scheduleJson ∧
        current.nextFireAt = row.nextFireAt) := by
  rw [patchSchedule] at h
  split at h
  · rename_i hchanged
    cases hnext : nextFireOf zones (row.edit body) now with
    | error e =>
      rw [hnext] at h
      cases h
    | ok next =>
      rw [hnext] at h
      obtain rfl := Except.ok.inj h
      exact ⟨rfl, fun _ => hnext, fun hnot => absurd hchanged hnot⟩
  · rename_i hnot
    obtain rfl := Except.ok.inj h
    refine ⟨rfl, fun hchanged => absurd hchanged hnot, fun _ => ?_⟩
    rw [SchedulePatchBody.scheduleChanged, not_or, Bool.not_eq_true, Bool.not_eq_true, Option.isSome_eq_false_iff,
      Option.isSome_eq_false_iff, Option.isNone_iff_eq_none, Option.isNone_iff_eq_none] at hnot
    simp [AgentSchedule.edit, hnot.1, hnot.2]

theorem nextFireOf_ok {row : AgentSchedule} {next : Option Time}
    (h : nextFireOf zones row now = .ok next) :
    row.enabled = true ∧ (∃ time, computeNextFireAt zones row.scheduleJson now = .ok time ∧ next = some time) ∨
      row.enabled = false ∧ next = none := by
  rw [nextFireOf] at h
  split at h
  · left
    cases htime : computeNextFireAt zones row.scheduleJson now with
    | error e =>
      rw [htime] at h
      cases h
    | ok time =>
      rw [htime] at h
      exact ⟨‹_›, time, rfl, (Except.ok.inj h).symm⟩
  · exact .inr ⟨Bool.eq_false_iff.mpr ‹_›, (Except.ok.inj h).symm⟩

theorem Kept.computingPatch (h : Kept zones s) {current : AgentSchedule}
    (hchanged : body.scheduleChanged) (hnext : nextFireOf zones current now = .ok current.nextFireAt) :
    Kept zones (s.computingPatch body current) ∧ current.Planned (s.computingPatch body current).computed := by
  rw [State.computingPatch, if_pos hchanged]
  rcases nextFireOf_ok hnext with ⟨henabled, time, htime, hsome⟩ | ⟨hdisabled, hnone⟩
  · rw [hsome]
    refine ⟨h.computing htime, fun _ => ⟨_, List.mem_cons_self, rfl, rfl, hsome⟩, fun hdisabled => ?_⟩
    exact absurd (henabled.symm.trans hdisabled) (by simp)
  · rw [hnone]
    exact ⟨h, fun henabled => absurd (henabled.symm.trans hdisabled) (by simp), fun _ => hnone⟩

theorem rows_computingPatch (s : State) (body : SchedulePatchBody) (current : AgentSchedule) :
    (s.computingPatch body current).rows = s.rows := by
  rw [State.computingPatch]
  split
  · split <;> rfl
  · rfl

theorem computed_subset_computingPatch (s : State) (body : SchedulePatchBody) (current : AgentSchedule) :
    s.computed ⊆ (s.computingPatch body current).computed := by
  rw [State.computingPatch]
  split
  · split
    · exact List.subset_cons_self ..
    · exact List.Subset.refl _
  · exact List.Subset.refl _

theorem Kept.commitPatch (h : Kept zones s) {loaded : AgentSchedule}
    (hphase : s.phase i = .patching loaded) (hunraced : Unraced zones s (.patch i body now)) :
    Kept zones (s.commitPatch zones i loaded body now) := by
  have hobjects := h.objects i
  simp only [Unraced, hphase, Phase.patched, Option.mem_some_iff, forall_eq'] at hobjects hunraced
  have hloaded : loaded.Planned s.computed := hobjects loaded (List.mem_singleton_self _)
  rw [State.commitPatch]
  cases hpatch : patchSchedule zones loaded body now with
  | error e => exact h.idle
  | ok current =>
    obtain ⟨hid, hrecomputed, huntouched⟩ := patchSchedule_ok hpatch
    have hlog := computed_subset_computingPatch s body current
    by_cases hchanged : body.scheduleChanged
    · obtain ⟨hcomputing, hcurrent⟩ := h.computingPatch hchanged (hrecomputed hchanged)
      refine (hcomputing.update fun row hrow hrowId => ?_).idle
      have hold : row ∈ s.rows := rows_computingPatch s body current ▸ hrow
      have hundisturbed := hunraced hchanged current (by simp [hpatch, Except.toOption]) row hold hrowId
      exact flushOver_planned (hloaded.mono hlog) hcurrent (hcomputing.rows row hrow) ⟨hrowId, hid⟩ hundisturbed
    · obtain ⟨henabled, hschedule, hnext⟩ := huntouched hchanged
      have hsame : s.computingPatch body current = s := by rw [State.computingPatch, if_neg hchanged]
      dsimp only
      rw [hsame]
      refine (h.update fun row hrow _ => ?_).idle
      refine (h.rows row hrow).congr rfl ?_ ?_ ?_
      · simp [AgentSchedule.flushOver, henabled]
      · simp [AgentSchedule.flushOver, hschedule]
      · simp [AgentSchedule.flushOver, hnext]

theorem Kept.step {s' : State} {a : Action} (h : Kept zones s) (hunraced : Unraced zones s a)
    (hstep : s.step zones a = some s') : Kept zones s' := by
  cases a with
  | select i worker now limit =>
    cases hphase : s.phase i <;> simp only [State.step, hphase, reduceCtorEq, Option.some.injEq] at hstep
    exact hstep ▸ h.sweeping fun row hrow => h.rows row (mem_dueSchedules hrow)
  | lease i =>
    cases hphase : s.phase i <;> simp only [State.step, hphase, reduceCtorEq, Option.some.injEq] at hstep
    have hcandidates := h.objects i
    rw [hphase] at hcandidates
    exact hstep ▸ h.leaseNext hcandidates
  | finish i firedAt base =>
    cases hphase : s.phase i <;> simp only [State.step, hphase, reduceCtorEq, Option.some.injEq] at hstep
    exact hstep ▸ h.finishDispatch hphase hunraced
  | load i scheduleId =>
    cases hphase : s.phase i <;>
      simp only [State.step, hphase, reduceCtorEq, Option.map_eq_some_iff] at hstep
    obtain ⟨row, hfind, rfl⟩ := hstep
    refine h.goto ?_ (by simp [Phase.dispatched])
    intro object hobject
    rw [List.mem_singleton.mp hobject]
    exact h.rows row (List.mem_of_find?_eq_some hfind)
  | patch i body now =>
    cases hphase : s.phase i <;> simp only [State.step, hphase, reduceCtorEq, Option.some.injEq] at hstep
    exact hstep ▸ h.commitPatch hphase hunraced
  | fail i =>
    obtain rfl := Option.some.inj hstep
    exact h.idle

/-- A table in which every next firing was computed, and no session has begun. -/
structure Settled (zones : Zones) (s : State) : Prop where
  rows : ∀ row ∈ s.rows, row.Planned s.computed
  computed : ∀ c ∈ s.computed, ∃ base, computeNextFireAt zones c.schedule base = .ok c.time
  idle : ∀ i, s.phase i = .idle

theorem Settled.kept (h : Settled zones s) : Kept zones s :=
  ⟨h.rows, fun i => by simp [h.idle i, Phase.objects], fun i => by simp [h.idle i, Phase.dispatched], h.computed⟩

theorem edits_survive (zones : Zones) (start : State) (actions : List Action) (s : State) (hstart : Settled zones start)
    (hmeets : (schedules zones).Meets (Unraced zones) start actions)
    (hrun : (schedules zones).run start actions = some s) :
    (∀ row ∈ s.rows, row.Planned s.computed) ∧
      ∀ c ∈ s.computed, ∃ base, computeNextFireAt zones c.schedule base = .ok c.time := by
  have hkept := (schedules zones).run_invariant_of_meets (fun _ _ _ h hunraced hstep => Kept.step h hunraced hstep)
    hstart.kept hmeets hrun
  exact ⟨hkept.rows, hkept.computed⟩

/-- One schedule of every five minutes, due at five. -/
def fiveMinutes : Schedule := .every ⟨300000, by decide⟩

def tenMinutes : Schedule := .every ⟨600000, by decide⟩

def oneSchedule : State where
  rows := [{ id := "as_1", agentId := "ag_a", scheduleJson := fiveMinutes, payloadJson := "", nextFireAt := some 300000000 }]
  phase := fun _ => .idle
  computed := [⟨"as_1", fiveMinutes, 300000000⟩]

/-- No zone is needed for an interval. -/
def noZones : Zones := fun _ => none

theorem settled_oneSchedule : Settled noZones oneSchedule := by
  refine ⟨?_, ?_, fun _ => rfl⟩
  · intro row hrow
    obtain rfl := List.mem_singleton.mp hrow
    exact ⟨fun _ => ⟨_, List.mem_singleton_self _, rfl, rfl, rfl⟩, fun hdisabled => absurd hdisabled (by decide)⟩
  · intro c hc
    obtain rfl := List.mem_singleton.mp hc
    exact ⟨0, rfl⟩

/-- The owner's patch is committed before the worker looks, and once more while it dispatches, for another payload. -/
def patchedBetween : List Action :=
  [.load 1 "as_1", .patch 1 { schedule := some tenMinutes } 1, .select 0 "w" 600000001 25, .lease 0, .load 1 "as_1",
    .patch 1 { payload := some "go" } 600000002, .finish 0 600000003 600000003, .lease 0]

theorem edits_survive_patched_between : ∃ s, (schedules noZones).run oneSchedule patchedBetween = some s ∧
    s.rows.map AgentSchedule.nextFireAt = [some 1200000003] ∧ ∀ row ∈ s.rows, row.Planned s.computed :=
  ⟨_, rfl, by decide +kernel, (edits_survive noZones oneSchedule patchedBetween _ settled_oneSchedule
    (by decide +kernel) rfl).1⟩

/-- The owner patches while the worker dispatches. -/
def patchedDuring : List Action :=
  [.select 0 "w" 300000000 25, .lease 0, .load 1 "as_1", .patch 1 { schedule := some tenMinutes } 300000001,
    .finish 0 300000002 300000002, .lease 0]

/-- Both are done, and the schedule of every ten minutes fires next when the one of every five would have. -/
theorem edit_overwritten : Settled noZones oneSchedule ∧ ∃ s ∈ (schedules noZones).run oneSchedule patchedDuring,
    (∀ i, s.phase i = .idle) ∧ ∃ row ∈ s.rows, row.enabled = true ∧ row.scheduleJson = tenMinutes ∧
      computeNextFireAt noZones fiveMinutes 300000002 = .ok 600000002 ∧ row.nextFireAt = some 600000002 ∧
      ¬ row.Planned s.computed := by
  refine ⟨settled_oneSchedule, _, rfl, fun i => ?_, _, List.mem_singleton_self _, rfl, rfl, rfl, rfl, fun h => ?_⟩
  · match i with
    | 0 => rfl
    | 1 => rfl
    | _ + 2 => rfl
  · obtain ⟨c, hc, hcid, hcschedule, hctime⟩ := h.enabled rfl
    revert hctime hcschedule hcid
    revert c
    decide +kernel

end BotCord.Schedules
