import BotCord.Foundation.Calendar
import BotCord.Foundation.Table
import BotCord.Foundation.Transaction

/-!
# The usage tables

`usage_balances`, `usage_reservations` and `usage_events` of `hub/models.py`. A balance row is one user's month; its period is named by the month it begins. Columns that no usage function reads back (timestamps, metadata) are left out.
-/

namespace BotCord.Usage

abbrev UserId := String
abbrev AgentId := String
abbrev RunId := String

inductive Meter
  | credits | sandboxSeconds

inductive ReservationState
  | active | settled | released
deriving DecidableEq

structure UsageBalance where
  userId : UserId
  periodStart : Month
  periodEnd : Month
  includedCredits : ℤ := 0
  usedCredits : ℤ := 0
  reservedCredits : ℤ := 0
  includedSandboxSeconds : ℤ := 0
  usedSandboxSeconds : ℤ := 0
  reservedSandboxSeconds : ℤ := 0

structure UsageReservation where
  userId : UserId
  agentId : AgentId
  runId : RunId
  reservedCredits : ℤ := 0
  reservedSandboxSeconds : ℤ := 0
  state : ReservationState := .active
deriving DecidableEq

structure UsageEvent where
  id : ℕ
  userId : UserId
  agentId : AgentId
  runId : RunId
  provider : String
  model : String
  inputCacheHitTokens : ℤ := 0
  inputCacheMissTokens : ℤ := 0
  outputTokens : ℤ := 0
  sandboxSeconds : ℤ := 0
  creditsCharged : ℤ := 0
  idempotencyKey : String

abbrev BalanceKey := UserId × Month

def UsageBalance.key (b : UsageBalance) : BalanceKey := (b.userId, b.periodStart)

def UsageBalance.reserved (b : UsageBalance) : Meter → ℤ
  | .credits => b.reservedCredits
  | .sandboxSeconds => b.reservedSandboxSeconds

def UsageBalance.used (b : UsageBalance) : Meter → ℤ
  | .credits => b.usedCredits
  | .sandboxSeconds => b.usedSandboxSeconds

def UsageReservation.reserved (r : UsageReservation) : Meter → ℤ
  | .credits => r.reservedCredits
  | .sandboxSeconds => r.reservedSandboxSeconds

def UsageEvent.charged (e : UsageEvent) : Meter → ℤ
  | .credits => e.creditsCharged
  | .sandboxSeconds => e.sandboxSeconds

/-- The usage tables, with the ids of the registered agents that rows refer to. -/
structure Store where
  agents : List AgentId
  balances : List UsageBalance := []
  reservations : List UsageReservation := []
  events : List UsageEvent := []

inductive Error
  | balanceInitFailed (userId : UserId)
  | quotaCreditsExceeded (need available : ℤ)
  | quotaSandboxSecondsExceeded (need available : ℤ)
  | reservationNotFound (runId : RunId)
  | reservationNotActive (runId : RunId) (state : ReservationState)
  | settlementRace (runId : RunId)
  /-- `ValueError` of a `datetime` past the last year. -/
  | yearOutOfRange
  | integrity
  | data

/-- The code of a `UsageError`; the other errors are not ones. -/
def Error.code : Error → Option String
  | balanceInitFailed _ => some "balance_init_failed"
  | quotaCreditsExceeded _ _ => some "quota_credits_exceeded"
  | quotaSandboxSecondsExceeded _ _ => some "quota_sandbox_seconds_exceeded"
  | reservationNotFound _ => some "reservation_not_found"
  | reservationNotActive _ _ => some "reservation_not_active"
  | settlementRace _ => some "settlement_race"
  | yearOutOfRange | integrity | data => none

/-- The values a `BigInteger` column can hold. -/
def FitsBigInteger (n : ℤ) : Prop := -2 ^ 63 ≤ n ∧ n < 2 ^ 63
deriving Decidable

namespace Store

structure InRange (s : Store) : Prop where
  balances : ∀ b ∈ s.balances, (FitsBigInteger b.includedCredits ∧ FitsBigInteger b.usedCredits ∧
    FitsBigInteger b.reservedCredits) ∧ FitsBigInteger b.includedSandboxSeconds ∧
    FitsBigInteger b.usedSandboxSeconds ∧ FitsBigInteger b.reservedSandboxSeconds
  reservations : ∀ r ∈ s.reservations, FitsBigInteger r.reservedCredits ∧ FitsBigInteger r.reservedSandboxSeconds
  events : ∀ e ∈ s.events, (FitsBigInteger e.inputCacheHitTokens ∧ FitsBigInteger e.inputCacheMissTokens ∧
    FitsBigInteger e.outputTokens) ∧ FitsBigInteger e.sandboxSeconds ∧ FitsBigInteger e.creditsCharged

/-- The unique, check and foreign key constraints. -/
structure Integral (s : Store) : Prop where
  balance_keys : (s.balances.map UsageBalance.key).Nodup
  balances_nonneg : ∀ b ∈ s.balances, (0 ≤ b.usedCredits ∧ 0 ≤ b.reservedCredits) ∧ 0 ≤ b.usedSandboxSeconds ∧
    0 ≤ b.reservedSandboxSeconds
  run_ids : (s.reservations.map UsageReservation.runId).Nodup
  reservations_nonneg : ∀ r ∈ s.reservations, 0 ≤ r.reservedCredits ∧ 0 ≤ r.reservedSandboxSeconds
  reservation_agents : ∀ r ∈ s.reservations, r.agentId ∈ s.agents
  event_keys : (s.events.map UsageEvent.idempotencyKey).Nodup
  event_agents : ∀ e ∈ s.events, e.agentId ∈ s.agents

instance (s : Store) : Decidable s.InRange :=
  decidable_of_iff
    ((∀ b ∈ s.balances, (FitsBigInteger b.includedCredits ∧ FitsBigInteger b.usedCredits ∧
        FitsBigInteger b.reservedCredits) ∧ FitsBigInteger b.includedSandboxSeconds ∧
        FitsBigInteger b.usedSandboxSeconds ∧ FitsBigInteger b.reservedSandboxSeconds) ∧
      (∀ r ∈ s.reservations, FitsBigInteger r.reservedCredits ∧ FitsBigInteger r.reservedSandboxSeconds) ∧
      ∀ e ∈ s.events, (FitsBigInteger e.inputCacheHitTokens ∧ FitsBigInteger e.inputCacheMissTokens ∧
        FitsBigInteger e.outputTokens) ∧ FitsBigInteger e.sandboxSeconds ∧ FitsBigInteger e.creditsCharged)
    ⟨fun ⟨a, b, c⟩ => ⟨a, b, c⟩, fun ⟨a, b, c⟩ => ⟨a, b, c⟩⟩

instance (s : Store) : Decidable s.Integral :=
  decidable_of_iff
    ((s.balances.map UsageBalance.key).Nodup ∧
      (∀ b ∈ s.balances, (0 ≤ b.usedCredits ∧ 0 ≤ b.reservedCredits) ∧ 0 ≤ b.usedSandboxSeconds ∧
        0 ≤ b.reservedSandboxSeconds) ∧
      (s.reservations.map UsageReservation.runId).Nodup ∧
      (∀ r ∈ s.reservations, 0 ≤ r.reservedCredits ∧ 0 ≤ r.reservedSandboxSeconds) ∧
      (∀ r ∈ s.reservations, r.agentId ∈ s.agents) ∧ (s.events.map UsageEvent.idempotencyKey).Nodup ∧
      ∀ e ∈ s.events, e.agentId ∈ s.agents)
    ⟨fun ⟨a, b, c, d, e, f, g⟩ => ⟨a, b, c, d, e, f, g⟩, fun ⟨a, b, c, d, e, f, g⟩ => ⟨a, b, c, d, e, f, g⟩⟩

def constraints (s : Store) : Except Error Unit :=
  if ¬ s.InRange then .error .data else if ¬ s.Integral then .error .integrity else .ok ()

theorem integral_of_constraints {s : Store} (h : s.constraints = .ok ()) : s.Integral := by
  rw [constraints] at h
  split at h
  · cases h
  · split at h
    · cases h
    · rename_i hintegral
      exact not_not.mp hintegral

theorem constraints_ne_integrity {s : Store} (h : s.Integral) : s.constraints ≠ .error .integrity := by
  rw [constraints, if_neg (not_not.mpr h)]
  split <;> simp

def findBalance (s : Store) (key : BalanceKey) : Option UsageBalance := s.balances.find? (·.key = key)

def findReservation (s : Store) (runId : RunId) : Option UsageReservation := s.reservations.find? (·.runId = runId)

def findEvent (s : Store) (key : String) : Option UsageEvent := s.events.find? (·.idempotencyKey = key)

def addBalance (s : Store) (b : UsageBalance) : Store := { s with balances := s.balances ++ [b] }

def putBalance (s : Store) (b : UsageBalance) : Store :=
  { s with balances := Table.update (·.key = b.key) (fun _ => b) s.balances }

def addReservation (s : Store) (r : UsageReservation) : Store := { s with reservations := s.reservations ++ [r] }

def setReservationState (s : Store) (runId : RunId) (state : ReservationState) : Store :=
  { s with reservations := Table.update (·.runId = runId) (fun r => { r with state }) s.reservations }

def addEvent (s : Store) (e : UsageEvent) : Store := { s with events := s.events ++ [e] }

/-- The usage tables before anything happened. -/
def empty (agents : List AgentId) : Store := { agents }

end Store

end BotCord.Usage
