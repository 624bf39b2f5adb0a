import BotCord.Usage.Specs

/-!
# The usage ledger

The rows hold what the active reservations reserve in every run in which each reservation is settled or released in the month it was made in. Elsewhere the call takes the reservation out of the row of its own month: the row it was added to keeps it for good, and the other row loses, down to zero, what it holds for other runs.
-/

namespace BotCord.Usage

open Transaction

/-- Every row holds what its active reservations reserve, and has used what its events were charged. -/
structure Sound (L : Ledger) : Prop where
  integral : L.store.Integral
  reserved : ∀ key m, L.store.reservedAt key m = L.held key m
  used : ∀ key m, L.store.usedAt key m = L.charged key m

namespace Ledger

def withStore (L : Ledger) (s : Store) : Ledger := { L with store := s }

theorem held_eq (L : Ledger) (key : BalanceKey) (m : Meter) :
    L.held key m = Table.total
      (fun r => if r.state = .active ∧ L.home r = key then r.reserved m else 0) L.store.reservations :=
  Table.total_filter _ _ _

theorem charged_eq (L : Ledger) (key : BalanceKey) (m : Meter) :
    L.charged key m = Table.total (fun e => if L.chargedTo e = key then e.charged m else 0) L.store.events :=
  Table.total_filter _ _ _

end Ledger

theorem sound_start (agents : List AgentId) : Sound (.start agents) := by
  refine ⟨⟨List.nodup_nil, ?_, List.nodup_nil, ?_, ?_, List.nodup_nil, ?_⟩, fun _ _ => rfl, fun _ _ => rfl⟩
  all_goals intro row hrow
  all_goals simp [Ledger.start, Store.empty] at hrow

section Step

variable {L : Ledger} {v : Store} {r : UsageReservation} {now : DateTime} {key : BalanceKey} {m : Meter}

theorem reserved_le_held (h : L.store.Integral) (hr : r ∈ L.store.reservations) (hactive : r.state = .active) :
    r.reserved m ≤ L.held (L.home r) m := by
  have hrow : r ∈ L.store.reservations.filter fun x => x.state = .active ∧ L.home x = L.home r := by
    simp [hr, hactive]
  exact Table.le_total (fun x hx => Store.reserved_nonneg h (List.mem_of_mem_filter hx) m) hrow

theorem held_nonneg (h : L.store.Integral) : 0 ≤ L.held key m := by
  apply Table.total_nonneg
  intro x hx
  exact Store.reserved_nonneg h (List.mem_of_mem_filter hx) m

theorem Sound.grown (h : Sound L) (hv : Grown L.store v) : Sound (L.withStore v) := by
  refine ⟨hv.integral, fun key m => ?_, fun key m => ?_⟩
  · show v.reservedAt key m = _
    rw [hv.reservedAt, h.reserved, Ledger.held_eq, Ledger.held_eq, ← hv.reservations]
    rfl
  · show v.usedAt key m = _
    rw [hv.usedAt, h.used, Ledger.charged_eq, Ledger.charged_eq, ← hv.events]
    rfl

theorem Sound.reservedIn_new (h : Sound L) {runId : RunId} (hnone : L.store.findReservation runId = none)
    (month : Month) : Sound { L with reservedIn := Function.update L.reservedIn runId month } := by
  refine ⟨h.integral, fun key m => ?_, h.used⟩
  rw [h.reserved, Ledger.held_eq, Ledger.held_eq]
  apply Table.total_congr
  intro x hx
  have hne : x.runId ≠ runId := by simpa using List.find?_eq_none.mp hnone x hx
  have hhome : Ledger.home { L with reservedIn := Function.update L.reservedIn runId month } x = L.home x := by
    simp only [Ledger.home, Function.update_of_ne hne]
  simp only [hhome]

theorem Sound.chargedIn_new (h : Sound L) {eventKey : String} (hnone : L.store.findEvent eventKey = none)
    (month : Month) : Sound { L with chargedIn := Function.update L.chargedIn eventKey month } := by
  refine ⟨h.integral, h.reserved, fun key m => ?_⟩
  rw [h.used, Ledger.charged_eq, Ledger.charged_eq]
  apply Table.total_congr
  intro x hx
  have hne : x.idempotencyKey ≠ eventKey := by simpa using List.find?_eq_none.mp hnone x hx
  have hto : Ledger.chargedTo { L with chargedIn := Function.update L.chargedIn eventKey month } x = L.chargedTo x := by
    simp only [Ledger.chargedTo, Function.update_of_ne hne]
  simp only [hto]

theorem Sound.reserve (h : Sound L) {request : ReserveRequest} (hmonth : L.reservedIn request.runId = now.monthOf)
    (hv : Reserved request now L.store v) : Sound (L.withStore v) := by
  refine ⟨hv.integral, fun key m => ?_, fun key m => ?_⟩
  · have hhome : (L.withStore v).home request.row = (request.userId, now.monthOf) := congrArg _ hmonth
    show v.reservedAt key m = _
    rw [hv.reservedAt, h.reserved, Ledger.held_eq, Ledger.held_eq]
    show _ = Table.total _ v.reservations
    rw [hv.reservations, Table.total_append, Table.total_cons, Table.total_nil, add_zero, hhome]
    simp only [ReserveRequest.row, true_and, eq_comm]
    rfl
  · show v.usedAt key m = _
    rw [hv.usedAt, h.used, Ledger.charged_eq, Ledger.charged_eq, ← hv.events]
    rfl

/-- Closing a reservation at home takes out of the rows what it held, no more and no less. -/
theorem Sound.held_closed (h : Sound L) {state : ReservationState} (hr : r ∈ L.store.reservations)
    (hactive : r.state = .active) (hstate : state ≠ .active) (hhome : ClosesAtHome L r now)
    (hv : Closed r state now L.store v) : v.reservedAt key m = (L.withStore v).held key m := by
  have hafter : (L.withStore v).held key m = L.held key m - if L.home r = key then r.reserved m else 0 := by
    have hclosed : (if ({ r with state } : UsageReservation).state = .active ∧
        (L.withStore v).home { r with state } = key then ({ r with state } : UsageReservation).reserved m else 0) = 0 :=
      if_neg fun hopen => hstate hopen.1
    rw [Ledger.held_eq]
    show Table.total _ v.reservations = _
    rw [hv.reservations]
    show Table.total _ (Table.update (·.runId = r.runId) _ L.store.reservations) = _
    rw [Table.total_update_key h.integral.run_ids hr, hclosed, add_zero, Ledger.held_eq]
    simp only [hactive, true_and]
    rfl
  have hnonneg : 0 ≤ L.held key m := held_nonneg h.integral
  rw [hafter, hv.reservedAt, h.reserved]
  rcases hhome with hmonth | ⟨hcredits, hseconds⟩
  · have hle := reserved_le_held (m := m) h.integral hr hactive
    have hkey : (r.userId, now.monthOf) = L.home r := by rw [Ledger.home, hmonth]
    rw [hkey]
    split
    · rename_i hat
      rw [if_pos hat.symm, hat]
      omega
    · rename_i hat
      rw [if_neg (Ne.symm hat), sub_zero]
  · have hzero : r.reserved m = 0 := by
      cases m with
      | credits => exact hcredits
      | sandboxSeconds => exact hseconds
    rw [hzero]
    split <;> omega

theorem Sound.settle (h : Sound L) {request : SettleRequest} {e : UsageEvent}
    (hfind : L.store.findReservation request.runId = some r) (hactive : r.state = .active)
    (hmonth : L.chargedIn request.key = now.monthOf) (hhome : ClosesAtHome L r now)
    (hv : Settled request r now e L.store v) : Sound (L.withStore v) := by
  refine ⟨hv.integral, fun key m => ?_, fun key m => ?_⟩
  · exact h.held_closed (Store.mem_of_findReservation hfind) hactive (by decide) hhome hv.closed
  · have hto : (L.withStore v).chargedTo e = (r.userId, now.monthOf) := by
      simp only [Ledger.chargedTo, Ledger.withStore, hv.key, hv.userId, hmonth]
    show v.usedAt key m = _
    rw [hv.usedAt, h.used, Ledger.charged_eq, Ledger.charged_eq]
    show _ = Table.total _ v.events
    rw [hv.events, Table.total_append, Table.total_cons, Table.total_nil, add_zero, hto]
    simp only [eq_comm]
    rfl

theorem Sound.release (h : Sound L) {runId : RunId} (hfind : L.store.findReservation runId = some r)
    (hactive : r.state = .active) (hhome : ClosesAtHome L r now) (hv : Released r now L.store v) :
    Sound (L.withStore v) := by
  refine ⟨hv.integral, fun key m => ?_, fun key m => ?_⟩
  · exact h.held_closed (Store.mem_of_findReservation hfind) hactive (by decide) hhome hv.closed
  · show v.usedAt key m = _
    rw [hv.usedAt, h.used, Ledger.charged_eq, Ledger.charged_eq, ← hv.events]
    rfl

/-- A run that is still active after another was released is closed at home as before. -/
theorem RunAtHome.after_release {other : RunId} {time : DateTime} (hv : Released r now L.store v) (h : RunAtHome L other time) : RunAtHome (L.withStore v) other time := by
  intro x hx hactive
  have hrows : v.findReservation other = (L.store.setReservationState r.runId .released).findReservation other := by
    simp only [Store.findReservation, hv.closed.reservations]
  have hx : v.findReservation other = some x := hx
  rw [hrows, Store.findReservation_setReservationState, Option.map_eq_some_iff] at hx
  obtain ⟨y, hy, hxy⟩ := hx
  split at hxy
  · rw [← hxy] at hactive
    cases hactive
  · rw [← hxy] at hactive ⊢
    exact h y hy hactive

/-- One release at home keeps the ledger sound, and the other runs as much at home as they were. -/
theorem release_sound {c : Config} {runId : RunId} {σ τ : Session Store} {released : Option UsageReservation}
    (h : Sound (L.withStore σ.view)) (hhome : RunAtHome (L.withStore σ.view) runId now)
    (hrun : exec (release c runId now) σ = (.ok released, τ)) :
    Sound (L.withStore τ.view) ∧
      ∀ other time, RunAtHome (L.withStore σ.view) other time → RunAtHome (L.withStore τ.view) other time := by
  rcases release_ok h.integral hrun with hsame | ⟨r, hfind, hactive, hv⟩
  · rw [hsame]
    exact ⟨h, fun _ _ => id⟩
  · have hat : ClosesAtHome (L.withStore σ.view) r now := hhome r hfind hactive
    exact ⟨h.release hfind hactive hat hv, fun _ _ => RunAtHome.after_release (L := L.withStore σ.view) hv⟩

theorem EachAtHome.mono {L' : Ledger} {clock : ℕ → DateTime} {k : ℕ} {runs : List RunId}
    (hmono : ∀ other time, RunAtHome L other time → RunAtHome L' other time) (h : EachAtHome L clock k runs) :
    EachAtHome L' clock k runs := by
  induction runs generalizing k with
  | nil => trivial
  | cons runId rest ih => exact ⟨hmono _ _ h.1, ih h.2⟩

theorem releaseEach_sound {c : Config} {clock : ℕ → DateTime} {k : ℕ} {runs : List RunId} {σ τ : Session Store}
    {u : Unit} (h : Sound (L.withStore σ.view)) (hhome : EachAtHome (L.withStore σ.view) clock k runs)
    (hrun : exec (releaseEach c clock k runs) σ = (.ok u, τ)) : Sound (L.withStore τ.view) := by
  induction runs generalizing k σ with
  | nil =>
    obtain ⟨-, rfl⟩ := exec_pure_ok.mp hrun
    exact h
  | cons runId rest ih =>
    obtain ⟨released, mid, hrelease, hrun⟩ := exec_bind_ok.mp hrun
    obtain ⟨hmid, hmono⟩ := release_sound h hhome.1 hrelease
    exact ih hmid (hhome.2.mono hmono) hrun

theorem apply_cases (c : Config) (op : Operation) (s : Store) :
    op.apply c s = s ∨ ∃ τ, exec (op.call c) ⟨s, s⟩ = (.ok (), τ) ∧ op.apply c s = τ.view :=
  (atomically_flush_cases (op.call c) Store.constraints s).imp id fun ⟨τ, hrun, hafter, _⟩ => ⟨τ, hrun, hafter⟩

variable {c : Config}

theorem preflight_sound {userId : UserId} {credits seconds : ℤ} (h : Sound L) :
    Sound (L.apply c (.preflight userId credits seconds now)) := by
  show Sound (L.withStore (Operation.apply c (.preflight userId credits seconds now) L.store))
  rcases apply_cases c (.preflight userId credits seconds now) L.store with hsame | ⟨τ, hrun, hafter⟩
  · rw [hsame]
    exact h
  · obtain ⟨balance, hrun⟩ := exec_void_ok.mp hrun
    obtain ⟨row, mid, hbalance, hrun⟩ := exec_bind_ok.mp hrun
    obtain ⟨v, rfl, hgrown, -⟩ := getOrCreateBalance_ok h.integral hbalance
    simp only [assertFits, exec_bind_ok, exec_require_ok, exec_pure_ok] at hrun
    obtain ⟨-, -, ⟨-, -, ⟨-, rfl⟩, -, rfl⟩, -, rfl⟩ := hrun
    rw [hafter]
    exact h.grown hgrown

theorem reserve_sound {request : ReserveRequest} (h : Sound L) : Sound (L.apply c (.reserve request now)) := by
  cases hfind : L.store.findReservation request.runId with
  | some existing =>
    have happly : L.apply c (.reserve request now) =
        L.withStore (Operation.apply c (.reserve request now) L.store) := by
      simp [Ledger.apply, Ledger.withStore, hfind]
    rw [happly]
    rcases apply_cases c (.reserve request now) L.store with hsame | ⟨τ, hrun, hafter⟩
    · rw [hsame]
      exact h
    · obtain ⟨row, hrun⟩ := exec_void_ok.mp hrun
      rcases reserve_ok h.integral hrun with hsame | ⟨hnone, -⟩
      · rw [hafter, hsame]
        exact h
      · simp [hfind] at hnone
  | none =>
    have hnew := h.reservedIn_new hfind now.monthOf
    have happly : L.apply c (.reserve request now) =
        Ledger.withStore { L with reservedIn := Function.update L.reservedIn request.runId now.monthOf }
          (Operation.apply c (.reserve request now) L.store) := by
      simp [Ledger.apply, Ledger.withStore, hfind]
    rw [happly]
    rcases apply_cases c (.reserve request now) L.store with hsame | ⟨τ, hrun, hafter⟩
    · rw [hsame]
      exact hnew
    · obtain ⟨row, hrun⟩ := exec_void_ok.mp hrun
      rcases reserve_ok h.integral hrun with hsame | ⟨-, hreserved⟩
      · rw [hafter, hsame]
        exact hnew
      · rw [hafter]
        exact hnew.reserve (Function.update_self ..) hreserved

theorem settle_sound {request : SettleRequest} (h : Sound L) (hhome : AtHome L (.settle request now)) :
    Sound (L.apply c (.settle request now)) := by
  cases hevent : L.store.findEvent request.key with
  | some existing =>
    have happly : L.apply c (.settle request now) =
        L.withStore (Operation.apply c (.settle request now) L.store) := by
      simp [Ledger.apply, Ledger.withStore, hevent]
    rw [happly]
    rcases apply_cases c (.settle request now) L.store with hsame | ⟨τ, hrun, hafter⟩
    · rw [hsame]
      exact h
    · obtain ⟨result, hrun⟩ := exec_void_ok.mp hrun
      rcases settle_ok h.integral hrun with hsame | ⟨_, _, hnone, -⟩
      · rw [hafter, hsame]
        exact h
      · simp [hevent] at hnone
  | none =>
    have hnew := h.chargedIn_new hevent now.monthOf
    have happly : L.apply c (.settle request now) =
        Ledger.withStore { L with chargedIn := Function.update L.chargedIn request.key now.monthOf }
          (Operation.apply c (.settle request now) L.store) := by
      simp [Ledger.apply, Ledger.withStore, hevent]
    rw [happly]
    rcases apply_cases c (.settle request now) L.store with hsame | ⟨τ, hrun, hafter⟩
    · rw [hsame]
      exact hnew
    · obtain ⟨result, hrun⟩ := exec_void_ok.mp hrun
      rcases settle_ok h.integral hrun with hsame | ⟨r, e, -, hfind, hactive, hsettled⟩
      · rw [hafter, hsame]
        exact hnew
      · rw [hafter]
        exact hnew.settle hfind hactive (Function.update_self ..) (hhome hevent r hfind hactive) hsettled

theorem release_step_sound {runId : RunId} (h : Sound L) (hhome : AtHome L (.release runId now)) :
    Sound (L.apply c (.release runId now)) := by
  show Sound (L.withStore (Operation.apply c (.release runId now) L.store))
  rcases apply_cases c (.release runId now) L.store with hsame | ⟨τ, hrun, hafter⟩
  · rw [hsame]
    exact h
  · obtain ⟨released, hrun⟩ := exec_void_ok.mp hrun
    rw [hafter]
    exact (release_sound (L := L) (σ := ⟨L.store, L.store⟩) h hhome hrun).1

theorem releaseForAgent_sound {agentId : AgentId} {clock : ℕ → DateTime} (h : Sound L)
    (hhome : AtHome L (.releaseForAgent agentId clock)) : Sound (L.apply c (.releaseForAgent agentId clock)) := by
  show Sound (L.withStore (Operation.apply c (.releaseForAgent agentId clock) L.store))
  rcases apply_cases c (.releaseForAgent agentId clock) L.store with hsame | ⟨τ, hrun, hafter⟩
  · rw [hsame]
    exact h
  · obtain ⟨count, hrun⟩ := exec_void_ok.mp hrun
    rw [releaseForAgent, exec_view_bind] at hrun
    obtain ⟨u, mid, heach, hcount⟩ := exec_bind_ok.mp hrun
    obtain ⟨-, rfl⟩ := exec_pure_ok.mp hcount
    rw [hafter]
    exact releaseEach_sound (L := L) (σ := ⟨L.store, L.store⟩) h hhome heach

theorem Sound.step (h : Sound L) {op : Operation} (hhome : AtHome L op) : Sound (L.apply c op) := by
  cases op with
  | preflight userId credits seconds now => exact preflight_sound h
  | reserve request now => exact reserve_sound h
  | settle request now => exact settle_sound h hhome
  | release runId now => exact release_step_sound h hhome
  | releaseForAgent agentId clock => exact releaseForAgent_sound h hhome

end Step

end BotCord.Usage
