import BotCord.Foundation.Run
import BotCord.Usage.Store

/-!
# The usage service

`hub/services/cloud_agent_usage.py`, function by function, each call in a session of its own. Whenever a call reads the clock, the time it reads is an argument.
-/

namespace BotCord.Usage

open Transaction

abbrev Tx (α : Type) := Transaction Store Error α

/-- The quotas of a period and the prices in thousandths of a credit, as `hub/config.py` has them. -/
structure Config where
  freeCredits : ℤ := 1000
  freeSandboxSeconds : ℤ := 3600
  millisPerInputCacheHitKilotoken : ℤ := 50
  millisPerInputCacheMissKilotoken : ℤ := 200
  millisPerOutputKilotoken : ℤ := 1000
  millisPerSandboxSecond : ℤ := 10

structure TokenUsage where
  inputCacheHitTokens : ℤ := 0
  inputCacheMissTokens : ℤ := 0
  outputTokens : ℤ := 0

structure SettlementResult where
  usageEventId : ℕ
  creditsCharged : ℤ
  sandboxSeconds : ℤ
  idempotencyKey : String
  deduplicated : Bool

def flushStore : Tx Unit := flush Store.constraints

/-- `[first-of-month, first-of-next-month)`. -/
def utcMonthWindow (now : DateTime) : Tx (Month × Month) :=
  if maxYear < now.monthOf.next.year then throw .yearOutOfRange else pure (now.monthOf, now.monthOf.next)

def creditsForTokens (c : Config) (usage : TokenUsage) : ℤ :=
  let millis := max usage.inputCacheHitTokens 0 * c.millisPerInputCacheHitKilotoken / 1000 +
    max usage.inputCacheMissTokens 0 * c.millisPerInputCacheMissKilotoken / 1000 +
    max usage.outputTokens 0 * c.millisPerOutputKilotoken / 1000
  (millis + 999) / 1000

def creditsForSandboxSeconds (c : Config) (sandboxSeconds : ℤ) : ℤ :=
  (max sandboxSeconds 0 * c.millisPerSandboxSecond + 999) / 1000

def creditsForSettlement (c : Config) (tokens : TokenUsage) (sandboxSeconds : ℤ) : ℤ :=
  creditsForTokens c tokens + creditsForSandboxSeconds c sandboxSeconds

def newBalance (c : Config) (userId : UserId) (periodStart periodEnd : Month) : UsageBalance :=
  { userId, periodStart, periodEnd, includedCredits := c.freeCredits, includedSandboxSeconds := c.freeSandboxSeconds }

def getOrCreateBalance (c : Config) (userId : UserId) (now : DateTime) : Tx UsageBalance := do
  let (periodStart, periodEnd) ← utcMonthWindow now
  match (← view).findBalance (userId, periodStart) with
  | some row => return row
  | none =>
    let row := newBalance c userId periodStart periodEnd
    modifyView (·.addBalance row)
    match ← attempt flushStore with
    | .ok () => return row
    | .error .integrity =>
      rollback
      match (← view).findBalance (userId, periodStart) with
      | some row => return row
      | none => throw (.balanceInitFailed userId)
    | .error e => throw e

def assertFits (balance : UsageBalance) (estimatedCredits estimatedSandboxSeconds : ℤ) : Tx Unit := do
  let availableCredits := balance.includedCredits - balance.usedCredits - balance.reservedCredits
  let availableSeconds :=
    balance.includedSandboxSeconds - balance.usedSandboxSeconds - balance.reservedSandboxSeconds
  require (estimatedCredits ≤ availableCredits) (.quotaCreditsExceeded estimatedCredits availableCredits)
  require (estimatedSandboxSeconds ≤ availableSeconds)
    (.quotaSandboxSecondsExceeded estimatedSandboxSeconds availableSeconds)

def preflight (c : Config) (userId : UserId) (estimatedCredits estimatedSandboxSeconds : ℤ) (now : DateTime) :
    Tx UsageBalance := do
  let balance ← getOrCreateBalance c userId now
  assertFits balance estimatedCredits estimatedSandboxSeconds
  return balance

structure ReserveRequest where
  userId : UserId
  agentId : AgentId
  runId : RunId
  credits : ℤ
  sandboxSeconds : ℤ

def ReserveRequest.row (r : ReserveRequest) : UsageReservation :=
  { userId := r.userId, agentId := r.agentId, runId := r.runId, reservedCredits := max r.credits 0
    reservedSandboxSeconds := max r.sandboxSeconds 0, state := .active }

/-- The balance with a reservation added to it. -/
def UsageBalance.reserve (b : UsageBalance) (r : UsageReservation) : UsageBalance :=
  { b with
    reservedCredits := b.reservedCredits + r.reservedCredits
    reservedSandboxSeconds := b.reservedSandboxSeconds + r.reservedSandboxSeconds }

def newReservation (c : Config) (r : ReserveRequest) (now : DateTime) : Tx UsageReservation := do
  let balance ← getOrCreateBalance c r.userId now
  assertFits balance (max r.credits 0) (max r.sandboxSeconds 0)
  modifyView (·.addReservation r.row)
  modifyView (·.putBalance (balance.reserve r.row))
  match ← attempt flushStore with
  | .ok () => return r.row
  | .error .integrity =>
    rollback
    match (← view).findReservation r.runId with
    | some existing => return existing
    | none => throw .integrity
  | .error e => throw e

def reserve (c : Config) (r : ReserveRequest) (now : DateTime) : Tx UsageReservation := do
  match (← view).findReservation r.runId with
  | some existing => return existing
  | none => newReservation c r now

/-- The balance with a reservation taken out again, never below zero. -/
def UsageBalance.unreserve (b : UsageBalance) (r : UsageReservation) : UsageBalance :=
  { b with
    reservedCredits := max (b.reservedCredits - r.reservedCredits) 0
    reservedSandboxSeconds := max (b.reservedSandboxSeconds - r.reservedSandboxSeconds) 0 }

structure SettleRequest where
  runId : RunId
  provider : String
  model : String
  tokens : Option TokenUsage := none
  sandboxSeconds : ℤ := 0
  idempotencyKey : Option String := none

/-- `idempotency_key or f"…:settle"`: an empty key counts as none. -/
def SettleRequest.key (r : SettleRequest) : String :=
  match r.idempotencyKey with
  | none => r.runId ++ ":settle"
  | some key => if key = "" then r.runId ++ ":settle" else key

def SettleRequest.credits (c : Config) (r : SettleRequest) : ℤ :=
  creditsForSettlement c (r.tokens.getD {}) r.sandboxSeconds

def SettleRequest.event (c : Config) (r : SettleRequest) (reservation : UsageReservation) (id : ℕ) : UsageEvent :=
  let tokens := r.tokens.getD {}
  { id, userId := reservation.userId, agentId := reservation.agentId, runId := r.runId, provider := r.provider
    model := r.model, inputCacheHitTokens := max tokens.inputCacheHitTokens 0
    inputCacheMissTokens := max tokens.inputCacheMissTokens 0, outputTokens := max tokens.outputTokens 0
    sandboxSeconds := max r.sandboxSeconds 0, creditsCharged := r.credits c, idempotencyKey := r.key }

def UsageBalance.charge (b : UsageBalance) (e : UsageEvent) : UsageBalance :=
  { b with
    usedCredits := b.usedCredits + e.creditsCharged
    usedSandboxSeconds := b.usedSandboxSeconds + e.sandboxSeconds }

def UsageEvent.deduplicated (e : UsageEvent) (key : String) : SettlementResult :=
  ⟨e.id, e.creditsCharged, e.sandboxSeconds, key, true⟩

def settleReservation (c : Config) (r : SettleRequest) (reservation : UsageReservation) (now : DateTime) :
    Tx SettlementResult := do
  let balance ← getOrCreateBalance c reservation.userId now
  let event := r.event c reservation ((← view).events.length + 1)
  modifyView (·.putBalance ((balance.unreserve reservation).charge event))
  modifyView (·.addEvent event)
  modifyView (·.setReservationState r.runId .settled)
  match ← attempt flushStore with
  | .ok () => return ⟨event.id, event.creditsCharged, r.sandboxSeconds, r.key, false⟩
  | .error .integrity =>
    rollback
    match (← view).findEvent r.key with
    | some existing => return existing.deduplicated r.key
    | none => throw (.settlementRace r.runId)
  | .error e => throw e

def settle (c : Config) (r : SettleRequest) (now : DateTime) : Tx SettlementResult := do
  match (← view).findEvent r.key with
  | some existing => return existing.deduplicated r.key
  | none =>
    match (← view).findReservation r.runId with
    | none => throw (.reservationNotFound r.runId)
    | some reservation =>
      require (reservation.state = .active) (.reservationNotActive r.runId reservation.state)
      settleReservation c r reservation now

def releaseReservation (c : Config) (reservation : UsageReservation) (now : DateTime) : Tx UsageReservation := do
  let balance ← getOrCreateBalance c reservation.userId now
  modifyView (·.putBalance (balance.unreserve reservation))
  modifyView (·.setReservationState reservation.runId .released)
  flushStore
  return { reservation with state := .released }

def release (c : Config) (runId : RunId) (now : DateTime) : Tx (Option UsageReservation) := do
  match (← view).findReservation runId with
  | none => return none
  | some reservation =>
    if reservation.state ≠ .active then return some reservation
    else return some (← releaseReservation c reservation now)

/-- The loop of `release_for_agent`; the `k`th release reads the clock at `clock k`. -/
def releaseEach (c : Config) (clock : ℕ → DateTime) : ℕ → List RunId → Tx Unit
  | _, [] => return ()
  | k, runId :: rest => do
    let _ ← release c runId (clock k)
    releaseEach c clock (k + 1) rest

def activeRuns (s : Store) (agentId : AgentId) : List RunId :=
  (s.reservations.filter fun r => r.agentId = agentId ∧ r.state = .active).map UsageReservation.runId

def releaseForAgent (c : Config) (agentId : AgentId) (clock : ℕ → DateTime) : Tx ℕ := do
  let active := activeRuns (← view) agentId
  releaseEach c clock 0 active
  return active.length

inductive Operation
  | preflight (userId : UserId) (estimatedCredits estimatedSandboxSeconds : ℤ) (now : DateTime)
  | reserve (r : ReserveRequest) (now : DateTime)
  | settle (r : SettleRequest) (now : DateTime)
  | release (runId : RunId) (now : DateTime)
  | releaseForAgent (agentId : AgentId) (clock : ℕ → DateTime)

def Operation.call (c : Config) : Operation → Tx Unit
  | .preflight userId credits seconds now => void (Usage.preflight c userId credits seconds now)
  | .reserve r now => void (Usage.reserve c r now)
  | .settle r now => void (Usage.settle c r now)
  | .release runId now => void (Usage.release c runId now)
  | .releaseForAgent agentId clock => void (Usage.releaseForAgent c agentId clock)

/-- One operation as one transaction: the call, and the flush of the commit. -/
def Operation.apply (c : Config) (op : Operation) (s : Store) : Store :=
  (atomically (do op.call c; flushStore) s).2

end BotCord.Usage
