import BotCord.Usage.Service

/-!
# What the usage calls do

How each statement moves the two views of a balance row, and what the session sees after each call that returns. The invariant is read through these and no call is opened again.
-/

/-!
## What the usage tables owe

A reservation belongs to the balance row it was added to, and an event to the row it was charged to. The tables do not say which row that was, so the history here remembers the month: `reservedIn` for a run, `chargedIn` for an event's key. The ledger is sound when every row holds what its active reservations reserve and has used what its events were charged.
-/

namespace BotCord.Usage

open Transaction

structure Ledger where
  store : Store
  /-- The month of the row that a run's reservation was added to. -/
  reservedIn : RunId → Month
  /-- The month of the row that an event was charged to. -/
  chargedIn : String → Month

def Ledger.start (agents : List AgentId) : Ledger := ⟨.empty agents, fun _ => ⟨0, 0⟩, fun _ => ⟨0, 0⟩⟩

/-- An operation on the store, with the months it fixes: a new reservation's and a new event's. -/
def Ledger.apply (c : Config) (L : Ledger) (op : Operation) : Ledger where
  store := op.apply c L.store
  reservedIn :=
    match op with
    | .reserve r now =>
      if (L.store.findReservation r.runId).isNone then Function.update L.reservedIn r.runId now.monthOf
      else L.reservedIn
    | _ => L.reservedIn
  chargedIn :=
    match op with
    | .settle r now =>
      if (L.store.findEvent r.key).isNone then Function.update L.chargedIn r.key now.monthOf else L.chargedIn
    | _ => L.chargedIn

def service (c : Config) : System Ledger Operation := System.total fun L op => L.apply c op

namespace Ledger

def home (L : Ledger) (r : UsageReservation) : BalanceKey := (r.userId, L.reservedIn r.runId)

def chargedTo (L : Ledger) (e : UsageEvent) : BalanceKey := (e.userId, L.chargedIn e.idempotencyKey)

def held (L : Ledger) (key : BalanceKey) (m : Meter) : ℤ :=
  Table.total (·.reserved m) (L.store.reservations.filter fun r => r.state = .active ∧ L.home r = key)

def charged (L : Ledger) (key : BalanceKey) (m : Meter) : ℤ :=
  Table.total (·.charged m) (L.store.events.filter (L.chargedTo · = key))

end Ledger

namespace Store

def reservedAt (s : Store) (key : BalanceKey) (m : Meter) : ℤ := ((s.findBalance key).map (·.reserved m)).getD 0

def usedAt (s : Store) (key : BalanceKey) (m : Meter) : ℤ := ((s.findBalance key).map (·.used m)).getD 0

end Store

/-- A closing call is in the month its run was reserved in, or the reservation is of nothing. -/
def ClosesAtHome (L : Ledger) (r : UsageReservation) (now : DateTime) : Prop :=
  L.reservedIn r.runId = now.monthOf ∨ (r.reservedCredits = 0 ∧ r.reservedSandboxSeconds = 0)
deriving Decidable

def RunAtHome (L : Ledger) (runId : RunId) (now : DateTime) : Prop :=
  ∀ r ∈ L.store.findReservation runId, r.state = .active → ClosesAtHome L r now
deriving Decidable

/-- The runs that the `k`th and later releases of a loop close are closed at home. -/
def EachAtHome (L : Ledger) (clock : ℕ → DateTime) : ℕ → List RunId → Prop
  | _, [] => True
  | k, runId :: rest => RunAtHome L runId (clock k) ∧ EachAtHome L clock (k + 1) rest

instance decidableEachAtHome (L : Ledger) (clock : ℕ → DateTime) : ∀ k runs, Decidable (EachAtHome L clock k runs)
  | _, [] => isTrue trivial
  | k, _ :: rest =>
    have := decidableEachAtHome L clock (k + 1) rest
    inferInstanceAs (Decidable (_ ∧ _))

/-- Every reservation that the operation settles or releases is closed in the month it was reserved in. -/
def AtHome (L : Ledger) : Operation → Prop
  | .settle r now => L.store.findEvent r.key = none → RunAtHome L r.runId now
  | .release runId now => RunAtHome L runId now
  | .releaseForAgent agentId clock => EachAtHome L clock 0 (activeRuns L.store agentId)
  | .preflight _ _ _ _ | .reserve _ _ => True

instance (L : Ledger) : DecidablePred (AtHome L) := fun _ => by
  unfold AtHome
  split <;> infer_instance

end BotCord.Usage

namespace BotCord.Usage

open Transaction

namespace Store

variable {s : Store} {key : BalanceKey} {b b' : UsageBalance} {m : Meter}

theorem key_of_findBalance (h : s.findBalance key = some b) : b.key = key := by
  simpa using List.find?_some h

theorem mem_of_findBalance (h : s.findBalance key = some b) : b ∈ s.balances := List.mem_of_find?_eq_some h

theorem reservedAt_of_find (h : s.findBalance key = some b) : s.reservedAt key m = b.reserved m := by
  rw [reservedAt, h, Option.map_some, Option.getD_some]

theorem usedAt_of_find (h : s.findBalance key = some b) : s.usedAt key m = b.used m := by
  rw [usedAt, h, Option.map_some, Option.getD_some]

theorem findBalance_putBalance (hfind : s.findBalance b'.key = some b) :
    (s.putBalance b').findBalance key = if key = b'.key then some b' else s.findBalance key := by
  have hupdate : (s.putBalance b').findBalance key =
      (s.findBalance key).map fun row => if row.key = b'.key then b' else row :=
    Table.find?_update fun row _ hrow => by rw [hrow]
  rw [hupdate]
  split
  · rename_i hkey
    rw [hkey, hfind, Option.map_some, if_pos (key_of_findBalance hfind)]
  · rename_i hkey
    cases hrow : s.findBalance key with
    | none => rfl
    | some row => rw [Option.map_some, if_neg (key_of_findBalance hrow ▸ hkey)]

theorem reservedAt_putBalance (hfind : s.findBalance b'.key = some b) :
    (s.putBalance b').reservedAt key m = if key = b'.key then b'.reserved m else s.reservedAt key m := by
  rw [reservedAt, findBalance_putBalance hfind]
  split <;> rfl

theorem usedAt_putBalance (hfind : s.findBalance b'.key = some b) :
    (s.putBalance b').usedAt key m = if key = b'.key then b'.used m else s.usedAt key m := by
  rw [usedAt, findBalance_putBalance hfind]
  split <;> rfl

theorem findReservation_setReservationState {runId other : RunId} {state : ReservationState} :
    (s.setReservationState runId state).findReservation other =
      (s.findReservation other).map fun r => if r.runId = runId then { r with state } else r :=
  Table.find?_update fun _ _ _ => Iff.rfl

variable {r : UsageReservation}

theorem runId_of_findReservation {runId : RunId} (h : s.findReservation runId = some r) :
    r.runId = runId := by
  simpa using List.find?_some h

theorem mem_of_findReservation {runId : RunId} (h : s.findReservation runId = some r) :
    r ∈ s.reservations :=
  List.mem_of_find?_eq_some h

theorem reserved_nonneg (hs : s.Integral) (hr : r ∈ s.reservations) (m : Meter) :
    0 ≤ r.reserved m := by
  cases m with
  | credits => exact (hs.reservations_nonneg r hr).1
  | sandboxSeconds => exact (hs.reservations_nonneg r hr).2

end Store

@[simp] theorem UsageBalance.key_reserve (b : UsageBalance) (r : UsageReservation) : (b.reserve r).key = b.key := rfl

@[simp] theorem UsageBalance.key_unreserve (b : UsageBalance) (r : UsageReservation) : (b.unreserve r).key = b.key := rfl

@[simp] theorem UsageBalance.key_charge (b : UsageBalance) (e : UsageEvent) : (b.charge e).key = b.key := rfl

@[simp] theorem UsageBalance.reserved_reserve (b : UsageBalance) (r : UsageReservation) (m : Meter) :
    (b.reserve r).reserved m = b.reserved m + r.reserved m := by
  cases m <;> rfl

@[simp] theorem UsageBalance.used_reserve (b : UsageBalance) (r : UsageReservation) (m : Meter) :
    (b.reserve r).used m = b.used m := by
  cases m <;> rfl

@[simp] theorem UsageBalance.reserved_unreserve (b : UsageBalance) (r : UsageReservation) (m : Meter) :
    (b.unreserve r).reserved m = max (b.reserved m - r.reserved m) 0 := by
  cases m <;> rfl

@[simp] theorem UsageBalance.used_unreserve (b : UsageBalance) (r : UsageReservation) (m : Meter) :
    (b.unreserve r).used m = b.used m := by
  cases m <;> rfl

@[simp] theorem UsageBalance.reserved_charge (b : UsageBalance) (e : UsageEvent) (m : Meter) :
    (b.charge e).reserved m = b.reserved m := by
  cases m <;> rfl

@[simp] theorem UsageBalance.used_charge (b : UsageBalance) (e : UsageEvent) (m : Meter) :
    (b.charge e).used m = b.used m + e.charged m := by
  cases m <;> rfl

/-- The store after a balance was looked up: its row may have been created, with nothing reserved or used. -/
structure Grown (s v : Store) : Prop where
  integral : v.Integral
  reservations : v.reservations = s.reservations
  events : v.events = s.events
  reservedAt : ∀ key m, v.reservedAt key m = s.reservedAt key m
  usedAt : ∀ key m, v.usedAt key m = s.usedAt key m

theorem Grown.refl {s : Store} (hs : s.Integral) : Grown s s := ⟨hs, rfl, rfl, fun _ _ => rfl, fun _ _ => rfl⟩

variable {c : Config} {userId : UserId}

theorem integral_addBalance {s : Store} {periodStart periodEnd : Month}
    (hs : s.Integral) (hnone : s.findBalance (userId, periodStart) = none) :
    (s.addBalance (newBalance c userId periodStart periodEnd)).Integral := by
  refine ⟨?_, ?_, hs.run_ids, hs.reservations_nonneg, hs.reservation_agents, hs.event_keys, hs.event_agents⟩
  · refine Table.nodup_append_singleton hs.balance_keys fun b hb hkey => ?_
    have hnot := List.find?_eq_none.mp hnone b hb
    exact hnot (decide_eq_true hkey)
  · intro b hb
    rcases List.mem_append.mp hb with hold | hnew
    · exact hs.balances_nonneg b hold
    · obtain rfl := List.mem_singleton.mp hnew
      exact ⟨⟨le_refl _, le_refl _⟩, le_refl _, le_refl _⟩

theorem grown_addBalance (c : Config) {s : Store} {periodStart : Month} (periodEnd : Month)
    (hs : s.Integral) (hnone : s.findBalance (userId, periodStart) = none) :
    Grown s (s.addBalance (newBalance c userId periodStart periodEnd)) := by
  have hfind : ∀ key, (s.addBalance (newBalance c userId periodStart periodEnd)).findBalance key =
      (s.findBalance key).or (if (userId, periodStart) = key then some (newBalance c userId periodStart periodEnd)
        else none) := fun key => Table.find?_append_singleton
  refine ⟨integral_addBalance hs hnone, rfl, rfl, fun key m => ?_, fun key m => ?_⟩
  · rw [Store.reservedAt, Store.reservedAt, hfind]
    by_cases hkey : (userId, periodStart) = key
    · rw [← hkey, hnone, Option.none_or, if_pos rfl]
      cases m <;> rfl
    · rw [if_neg hkey, Option.or_none]
  · rw [Store.usedAt, Store.usedAt, hfind]
    by_cases hkey : (userId, periodStart) = key
    · rw [← hkey, hnone, Option.none_or, if_pos rfl]
      cases m <;> rfl
    · rw [if_neg hkey, Option.or_none]

variable {now : DateTime} {σ τ : Session Store}

theorem utcMonthWindow_ok {window : Month × Month}
    (h : exec (utcMonthWindow now) σ = (.ok window, τ)) : window.1 = now.monthOf ∧ τ = σ := by
  rw [utcMonthWindow] at h
  split at h
  · simp at h
  · obtain ⟨rfl, rfl⟩ := exec_pure_ok.mp h
    exact ⟨rfl, rfl⟩

/-- A balance that is returned is the row of its user and month, and looking it up reserved and used nothing. -/
theorem getOrCreateBalance_ok
    {balance : UsageBalance} (hs : σ.view.Integral)
    (h : exec (getOrCreateBalance c userId now) σ = (.ok balance, τ)) :
    ∃ v, τ = { σ with view := v } ∧ Grown σ.view v ∧ v.findBalance (userId, now.monthOf) = some balance := by
  rw [getOrCreateBalance] at h
  obtain ⟨⟨periodStart, periodEnd⟩, m, hwindow, h⟩ := exec_bind_ok.mp h
  obtain ⟨hstart, rfl⟩ := utcMonthWindow_ok hwindow
  obtain rfl : periodStart = now.monthOf := hstart
  simp only [exec_view_bind] at h
  cases hfind : m.view.findBalance (userId, now.monthOf) with
  | some row =>
    rw [hfind] at h
    obtain ⟨rfl, rfl⟩ := exec_pure_ok.mp h
    exact ⟨m.view, rfl, .refl hs, hfind⟩
  | none =>
    have hgrown := grown_addBalance c periodEnd hs hfind
    rw [hfind] at h
    simp only [exec_modifyView_bind, exec_attempt_bind, flushStore, exec_flush] at h
    cases hflush : (m.view.addBalance (newBalance c userId now.monthOf periodEnd)).constraints with
    | ok u =>
      rw [hflush] at h
      obtain ⟨rfl, rfl⟩ := exec_pure_ok.mp h
      refine ⟨_, rfl, hgrown, ?_⟩
      have happend : (m.view.addBalance (newBalance c userId now.monthOf periodEnd)).findBalance
          (userId, now.monthOf) = _ := Table.find?_append_singleton
      rw [happend, show m.view.balances.find? _ = none from hfind, Option.none_or]
      exact if_pos rfl
    | error e =>
      have hnot : e ≠ .integrity := fun he => Store.constraints_ne_integrity hgrown.integral (he ▸ hflush)
      rw [hflush] at h
      cases e with
      | integrity => exact absurd rfl hnot
      | _ => simp at h

/-- A reservation that was made: the row of the call's month holds it on top of what it held. -/
structure Reserved (r : ReserveRequest) (now : DateTime) (s v : Store) : Prop where
  integral : v.Integral
  reservations : v.reservations = s.reservations ++ [r.row]
  events : v.events = s.events
  reservedAt : ∀ key m, v.reservedAt key m =
    s.reservedAt key m + if key = (r.userId, now.monthOf) then r.row.reserved m else 0
  usedAt : ∀ key m, v.usedAt key m = s.usedAt key m

variable {reservation : UsageReservation}

theorem newReservation_ok {r : ReserveRequest}
    (hs : σ.view.Integral)
    (h : exec (newReservation c r now) σ = (.ok reservation, τ)) :
    τ.view = σ.committed ∨ Reserved r now σ.view τ.view := by
  rw [newReservation] at h
  obtain ⟨balance, m, hbalance, h⟩ := exec_bind_ok.mp h
  obtain ⟨v, rfl, hgrown, hfind⟩ := getOrCreateBalance_ok hs hbalance
  obtain ⟨u, m', hfits, h⟩ := exec_bind_ok.mp h
  simp only [assertFits, exec_require_bind_ok, exec_require_ok] at hfits
  obtain ⟨-, -, rfl⟩ := hfits
  simp only [exec_modifyView_bind, exec_attempt_bind, flushStore, exec_flush] at h
  cases hflush : ((v.addReservation r.row).putBalance (balance.reserve r.row)).constraints with
  | ok u =>
    rw [hflush] at h
    obtain ⟨-, rfl⟩ := exec_pure_ok.mp h
    right
    have hkey : (balance.reserve r.row).key = (r.userId, now.monthOf) := by
      rw [UsageBalance.key_reserve, Store.key_of_findBalance hfind]
    have hfind' : (v.addReservation r.row).findBalance (balance.reserve r.row).key = some balance := hkey ▸ hfind
    refine ⟨Store.integral_of_constraints hflush, ?_, hgrown.events, fun key m => ?_, fun key m => ?_⟩
    · exact congrArg (· ++ [r.row]) hgrown.reservations
    · rw [Store.reservedAt_putBalance hfind', hkey, ← hgrown.reservedAt]
      split
      · rename_i h
        rw [UsageBalance.reserved_reserve, h, Store.reservedAt_of_find hfind]
      · rw [add_zero]
        rfl
    · rw [Store.usedAt_putBalance hfind', hkey, ← hgrown.usedAt]
      split
      · rename_i h
        rw [UsageBalance.used_reserve, h, Store.usedAt_of_find hfind]
      · rfl
  | error e =>
    rw [hflush] at h
    cases e with
    | integrity =>
      left
      simp only [exec_rollback_bind, exec_view_bind] at h
      cases hexisting : σ.committed.findReservation r.runId with
      | none => simp [hexisting] at h
      | some existing =>
        rw [hexisting] at h
        obtain ⟨-, rfl⟩ := exec_pure_ok.mp h
        rfl
    | _ => simp at h

theorem reserve_ok {r : ReserveRequest} {s : Store} {τ : Session Store}
    (hs : s.Integral) (h : exec (reserve c r now) ⟨s, s⟩ = (.ok reservation, τ)) :
    τ.view = s ∨ (s.findReservation r.runId = none ∧ Reserved r now s τ.view) := by
  rw [reserve, exec_view_bind] at h
  cases hfind : s.findReservation r.runId with
  | some existing =>
    simp only [hfind] at h
    obtain ⟨-, rfl⟩ := exec_pure_ok.mp h
    exact .inl rfl
  | none =>
    simp only [hfind] at h
    exact (newReservation_ok hs h).imp id fun hreserved => ⟨rfl, hreserved⟩

/-- A reservation that was closed: its share was taken out of the row of the call's month, as far as that row held it. -/
structure Closed (r : UsageReservation) (state : ReservationState) (now : DateTime) (s v : Store) : Prop where
  reservations : v.reservations = (s.setReservationState r.runId state).reservations
  reservedAt : ∀ key m, v.reservedAt key m =
    if key = (r.userId, now.monthOf) then max (s.reservedAt key m - r.reserved m) 0 else s.reservedAt key m

/-- A settlement that was made, with the event it wrote. -/
structure Settled (r : SettleRequest) (reservation : UsageReservation) (now : DateTime) (e : UsageEvent)
    (s v : Store) : Prop where
  integral : v.Integral
  closed : Closed reservation .settled now s v
  key : e.idempotencyKey = r.key
  userId : e.userId = reservation.userId
  events : v.events = s.events ++ [e]
  usedAt : ∀ key m, v.usedAt key m =
    s.usedAt key m + if key = (reservation.userId, now.monthOf) then e.charged m else 0

theorem settleReservation_ok {r : SettleRequest}
    {result : SettlementResult} (hs : σ.view.Integral) (hrun : reservation.runId = r.runId)
    (h : exec (settleReservation c r reservation now) σ = (.ok result, τ)) :
    τ.view = σ.committed ∨ ∃ e, Settled r reservation now e σ.view τ.view := by
  rw [settleReservation] at h
  obtain ⟨balance, m, hbalance, h⟩ := exec_bind_ok.mp h
  obtain ⟨v, rfl, hgrown, hfind⟩ := getOrCreateBalance_ok hs hbalance
  simp only [exec_view_bind, exec_modifyView_bind, exec_attempt_bind, flushStore, exec_flush] at h
  generalize hevent : r.event c reservation (v.events.length + 1) = e at h
  cases hflush : (((v.putBalance ((balance.unreserve reservation).charge e)).addEvent e).setReservationState r.runId
      .settled).constraints with
  | ok u =>
    rw [hflush] at h
    obtain ⟨-, rfl⟩ := exec_pure_ok.mp h
    right
    have hkey : ((balance.unreserve reservation).charge e).key = (reservation.userId, now.monthOf) := by
      rw [UsageBalance.key_charge, UsageBalance.key_unreserve, Store.key_of_findBalance hfind]
    have hfind' : v.findBalance ((balance.unreserve reservation).charge e).key = some balance := hkey ▸ hfind
    refine ⟨e, Store.integral_of_constraints hflush, ⟨?_, fun key m => ?_⟩, ?_, ?_, ?_, fun key m => ?_⟩
    · show Table.update _ _ v.reservations = Table.update _ _ σ.view.reservations
      rw [hgrown.reservations, hrun]
    · show (v.putBalance _).reservedAt key m = _
      rw [Store.reservedAt_putBalance hfind', hkey, ← hgrown.reservedAt]
      split
      · rename_i h
        rw [UsageBalance.reserved_charge, UsageBalance.reserved_unreserve, h, Store.reservedAt_of_find hfind]
      · rfl
    · rw [← hevent]
      rfl
    · rw [← hevent]
      rfl
    · exact congrArg (· ++ [e]) hgrown.events
    · show (v.putBalance _).usedAt key m = _
      rw [Store.usedAt_putBalance hfind', hkey, ← hgrown.usedAt]
      split
      · rename_i h
        rw [UsageBalance.used_charge, UsageBalance.used_unreserve, h, Store.usedAt_of_find hfind]
      · rw [add_zero]
  | error e' =>
    rw [hflush] at h
    cases e' with
    | integrity =>
      left
      simp only [exec_rollback_bind, exec_view_bind] at h
      cases hexisting : σ.committed.findEvent r.key with
      | none => simp [hexisting] at h
      | some existing =>
        rw [hexisting] at h
        obtain ⟨-, rfl⟩ := exec_pure_ok.mp h
        rfl
    | _ => simp at h

theorem settle_ok {r : SettleRequest} {s : Store} {τ : Session Store}
    {result : SettlementResult} (hs : s.Integral) (h : exec (settle c r now) ⟨s, s⟩ = (.ok result, τ)) :
    τ.view = s ∨ ∃ reservation e, s.findEvent r.key = none ∧ s.findReservation r.runId = some reservation ∧
      reservation.state = .active ∧ Settled r reservation now e s τ.view := by
  rw [settle, exec_view_bind] at h
  cases hevent : s.findEvent r.key with
  | some existing =>
    simp only [hevent] at h
    obtain ⟨-, rfl⟩ := exec_pure_ok.mp h
    exact .inl rfl
  | none =>
    simp only [hevent, exec_view_bind] at h
    cases hfind : s.findReservation r.runId with
    | none => simp [hfind] at h
    | some reservation =>
      simp only [hfind, exec_require_bind_ok] at h
      obtain ⟨hactive, h⟩ := h
      rcases settleReservation_ok hs (Store.runId_of_findReservation hfind) h with hsame | ⟨e, hsettled⟩
      · exact .inl hsame
      · exact .inr ⟨reservation, e, rfl, rfl, hactive, hsettled⟩

structure Released (reservation : UsageReservation) (now : DateTime) (s v : Store) : Prop where
  integral : v.Integral
  closed : Closed reservation .released now s v
  events : v.events = s.events
  usedAt : ∀ key m, v.usedAt key m = s.usedAt key m

theorem releaseReservation_ok {reservation released : UsageReservation}
    (hs : σ.view.Integral)
    (h : exec (releaseReservation c reservation now) σ = (.ok released, τ)) :
    Released reservation now σ.view τ.view := by
  rw [releaseReservation] at h
  obtain ⟨balance, m, hbalance, h⟩ := exec_bind_ok.mp h
  obtain ⟨v, rfl, hgrown, hfind⟩ := getOrCreateBalance_ok hs hbalance
  simp only [exec_modifyView_bind, flushStore, exec_flush_bind_ok] at h
  obtain ⟨hflush, h⟩ := h
  obtain ⟨-, rfl⟩ := exec_pure_ok.mp h
  have hkey : (balance.unreserve reservation).key = (reservation.userId, now.monthOf) := by
    rw [UsageBalance.key_unreserve, Store.key_of_findBalance hfind]
  have hfind' : v.findBalance (balance.unreserve reservation).key = some balance := hkey ▸ hfind
  refine ⟨Store.integral_of_constraints hflush, ⟨?_, fun key m => ?_⟩, hgrown.events, fun key m => ?_⟩
  · show Table.update _ _ v.reservations = Table.update _ _ σ.view.reservations
    rw [hgrown.reservations]
  · show (v.putBalance _).reservedAt key m = _
    rw [Store.reservedAt_putBalance hfind', hkey, ← hgrown.reservedAt]
    split
    · rename_i h
      rw [UsageBalance.reserved_unreserve, h, Store.reservedAt_of_find hfind]
    · rfl
  · show (v.putBalance _).usedAt key m = _
    rw [Store.usedAt_putBalance hfind', hkey, ← hgrown.usedAt]
    split
    · rename_i h
      rw [UsageBalance.used_unreserve, h, Store.usedAt_of_find hfind]
    · rfl

theorem release_ok {runId : RunId}
    {released : Option UsageReservation} (hs : σ.view.Integral)
    (h : exec (release c runId now) σ = (.ok released, τ)) :
    τ.view = σ.view ∨ ∃ reservation, σ.view.findReservation runId = some reservation ∧
      reservation.state = .active ∧ Released reservation now σ.view τ.view := by
  rw [release, exec_view_bind] at h
  cases hfind : σ.view.findReservation runId with
  | none =>
    simp only [hfind] at h
    obtain ⟨-, rfl⟩ := exec_pure_ok.mp h
    exact .inl rfl
  | some reservation =>
    simp only [hfind] at h
    split at h
    · obtain ⟨-, rfl⟩ := exec_pure_ok.mp h
      exact .inl rfl
    · rename_i hactive
      obtain ⟨row, m, hrelease, h⟩ := exec_bind_ok.mp h
      obtain ⟨-, rfl⟩ := exec_pure_ok.mp h
      exact .inr ⟨reservation, rfl, not_not.mp hactive, releaseReservation_ok hs hrelease⟩

end BotCord.Usage
