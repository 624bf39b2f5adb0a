import BotCord.Usage.Invariant

/-!
# What a user's rows hold

The invariant read from the outside: a user's rows together hold what the user's active reservations reserve, a row has used what its events were charged, and closing one run leaves what is held for the others.
-/

namespace BotCord.Usage

def Store.reservedBy (s : Store) (userId : UserId) (m : Meter) : ℤ :=
  Table.total (·.reserved m) (s.balances.filter (·.userId = userId))

/-- What the user's active reservations reserve. -/
def Store.activeFor (s : Store) (userId : UserId) (m : Meter) : ℤ :=
  Table.total (·.reserved m) (s.reservations.filter fun r => r.state = .active ∧ r.userId = userId)

/-- What a run's row holds beside the reservations of the other runs that were added to it. -/
def Ledger.heldFor (L : Ledger) (r : UsageReservation) (m : Meter) : ℤ :=
  L.store.reservedAt (L.home r) m - (L.held (L.home r) m - r.reserved m)

/-- The usage tables are kept: per user and per row. -/
structure Kept (L : Ledger) : Prop where
  reserved : ∀ userId m, L.store.reservedBy userId m = L.store.activeFor userId m
  used : ∀ b ∈ L.store.balances, ∀ m, b.used m = L.charged b.key m

namespace Sound

variable {L : Ledger}

theorem home_mem (h : Sound L) {r : UsageReservation} (hr : r ∈ L.store.reservations) (hactive : r.state = .active)
    {m : Meter} (hreserved : r.reserved m ≠ 0) : ∃ b ∈ L.store.balances, b.key = L.home r := by
  have hnonneg := Store.reserved_nonneg h.integral hr m
  have hle := reserved_le_held (m := m) h.integral hr hactive
  have hheld := h.reserved (L.home r) m
  cases hfind : L.store.findBalance (L.home r) with
  | none =>
    rw [Store.reservedAt, hfind, Option.map_none, Option.getD_none] at hheld
    omega
  | some b => exact ⟨b, Store.mem_of_findBalance hfind, Store.key_of_findBalance hfind⟩

theorem reservedBy_eq (h : Sound L) (userId : UserId) (m : Meter) :
    L.store.reservedBy userId m = L.store.activeFor userId m := by
  let rows := L.store.balances.filter (·.userId = userId)
  let weight := fun r : UsageReservation => if r.state = .active ∧ r.userId = userId then r.reserved m else 0
  have hkeys : (rows.map UsageBalance.key).Nodup := h.integral.balance_keys.sublist (List.filter_sublist.map _)
  have hcover : ∀ r ∈ L.store.reservations, weight r ≠ 0 → L.home r ∈ rows.map UsageBalance.key := by
    intro r hr hweight
    obtain ⟨⟨hactive, huser⟩, hreserved⟩ := ite_ne_right_iff.mp hweight
    obtain ⟨b, hb, hkey⟩ := h.home_mem hr hactive hreserved
    have hbuser : b.userId = userId := (congrArg Prod.fst hkey).trans huser
    exact hkey ▸ List.mem_map_of_mem (List.mem_filter.mpr ⟨hb, decide_eq_true hbuser⟩)
  have hrow : ∀ b ∈ rows, b.reserved m =
      Table.total (fun r => if L.home r = b.key then weight r else 0) L.store.reservations := by
    intro b hb
    obtain ⟨hb, hbuser⟩ := List.mem_filter.mp hb
    have hfind : L.store.findBalance b.key = some b := Table.find?_eq_some_of_mem h.integral.balance_keys hb
    rw [← Store.reservedAt_of_find hfind, h.reserved, Ledger.held_eq]
    apply Table.total_congr
    intro r _
    by_cases hhome : L.home r = b.key
    · have huser : r.userId = userId := (congrArg Prod.fst hhome).trans (of_decide_eq_true hbuser)
      simp only [weight, hhome, huser, and_true, if_true]
    · simp only [hhome, and_false, if_false]
  calc L.store.reservedBy userId m
      = Table.total (fun b => Table.total (fun r => if L.home r = b.key then weight r else 0) L.store.reservations)
          rows := Table.total_congr hrow
    _ = Table.total (fun key => Table.total (fun r => if L.home r = key then weight r else 0) L.store.reservations)
          (rows.map UsageBalance.key) := by simp only [Table.total, List.map_map, Function.comp_def]
    _ = Table.total weight L.store.reservations := Table.total_by_key hkeys hcover
    _ = L.store.activeFor userId m := (Table.total_filter _ _ _).symm

theorem kept (h : Sound L) : Kept L := by
  refine ⟨h.reservedBy_eq, fun b hb m => ?_⟩
  have hfind : L.store.findBalance b.key = some b := Table.find?_eq_some_of_mem h.integral.balance_keys hb
  rw [← Store.usedAt_of_find hfind, h.used]

theorem heldFor_eq (h : Sound L) (r : UsageReservation) (m : Meter) : L.heldFor r m = r.reserved m := by
  rw [Ledger.heldFor, h.reserved]
  omega

end Sound

theorem service_sound (c : Config) {agents : List AgentId} {actions : List Operation} {L : Ledger}
    (hmeets : (service c).Meets AtHome (.start agents) actions)
    (hrun : (service c).run (.start agents) actions = some L) : Sound L :=
  (service c).run_invariant_of_meets (fun _ _ _ hsound hhome hstep => Option.some.inj hstep ▸ hsound.step hhome)
    (sound_start agents) hmeets hrun

/-- In every run in which each reservation is closed in the month it was made in, the usage tables are kept, and an
operation leaves what is held for every run that stays active. -/
theorem kept_at_home (c : Config) (agents : List AgentId) (actions : List Operation) (L : Ledger)
    (hmeets : (service c).Meets AtHome (.start agents) actions)
    (hrun : (service c).run (.start agents) actions = some L) :
    Kept L ∧ ∀ op, AtHome L op → ∀ r ∈ L.store.reservations, r ∈ (L.apply c op).store.reservations →
      r.state = .active → ∀ m, (L.apply c op).heldFor r m = L.heldFor r m := by
  have hsound := service_sound c hmeets hrun
  refine ⟨hsound.kept, fun op hhome r _ _ _ m => ?_⟩
  rw [hsound.heldFor_eq, (hsound.step hhome).heldFor_eq]

/-- Two reservations of a user, and the settlement of the first in the same month. -/
def oneMonth : List Operation :=
  [.reserve ⟨"u", "ag", "r1", 10, 60⟩ { year := 2026, month := 1, day := 5 },
    .reserve ⟨"u", "ag", "r2", 7, 0⟩ { year := 2026, month := 1, day := 6 },
    .settle { runId := "r1", provider := "p", model := "m", sandboxSeconds := 30 }
      { year := 2026, month := 1, day := 7 }]

theorem kept_at_home_in_one_month :
    ∃ L, (service {}).Meets AtHome (.start ["ag"]) oneMonth ∧ (service {}).run (.start ["ag"]) oneMonth = some L ∧
      L.store.activeFor "u" .credits = 7 ∧ Kept L ∧
      ∀ op, AtHome L op → ∀ r ∈ L.store.reservations, r ∈ (L.apply {} op).store.reservations →
        r.state = .active → ∀ m, (L.apply {} op).heldFor r m = L.heldFor r m :=
  have hmeets : (service {}).Meets AtHome (.start ["ag"]) oneMonth := by decide +kernel
  ⟨_, hmeets, rfl, by decide +kernel, kept_at_home {} ["ag"] oneMonth _ hmeets rfl⟩

/-- A reservation of January and one of February. -/
def acrossMonths : List Operation :=
  [.reserve ⟨"u", "ag", "r1", 10, 0⟩ { year := 2026, month := 1, day := 31 },
    .reserve ⟨"u", "ag", "r2", 7, 0⟩ { year := 2026, month := 2, day := 1 }]

/-- Releasing the run of January in February takes its ten credits out of the row of February: what is held for the
other run is gone, and the row of January keeps the ten. -/
theorem lowered_across_months :
    ∃ L after r, (service {}).run (.start ["ag"]) acrossMonths = some L ∧
      (service {}).step L (.release "r1" { year := 2026, month := 2, day := 2 }) = some after ∧
      after.store.reservedBy "u" .credits = 10 ∧ after.store.activeFor "u" .credits = 7 ∧
      (r ∈ L.store.reservations ∧ r ∈ after.store.reservations ∧ r.state = .active) ∧
      after.heldFor r .credits < L.heldFor r .credits :=
  ⟨_, _, { userId := "u", agentId := "ag", runId := "r2", reservedCredits := 7 }, rfl, rfl, by decide +kernel⟩

end BotCord.Usage
