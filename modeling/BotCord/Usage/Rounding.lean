import BotCord.Usage.Service
import Mathlib.Tactic.Linarith
import Mathlib.Tactic.Positivity

/-!
# What a settlement is rounded to

The three token terms are each rounded down to a thousandth of a credit, their sum and the sandbox term are each rounded up to a credit. The rounding up usually covers what the rounding down has lost, and does not when the rounded sum lies on or just under a whole credit. It never reaches two credits above the cost, and more of anything never costs less.
-/

namespace BotCord.Usage

/-- What one settlement is priced from. -/
structure Consumption where
  config : Config
  tokens : TokenUsage
  sandboxSeconds : ℤ
  hitPrice : 0 ≤ config.millisPerInputCacheHitKilotoken
  missPrice : 0 ≤ config.millisPerInputCacheMissKilotoken
  outputPrice : 0 ≤ config.millisPerOutputKilotoken
  secondPrice : 0 ≤ config.millisPerSandboxSecond
  hit : 0 ≤ tokens.inputCacheHitTokens
  miss : 0 ≤ tokens.inputCacheMissTokens
  output : 0 ≤ tokens.outputTokens
  seconds : 0 ≤ sandboxSeconds

namespace Consumption

structure Le (x y : Consumption) : Prop where
  hitPrice : x.config.millisPerInputCacheHitKilotoken ≤ y.config.millisPerInputCacheHitKilotoken
  missPrice : x.config.millisPerInputCacheMissKilotoken ≤ y.config.millisPerInputCacheMissKilotoken
  outputPrice : x.config.millisPerOutputKilotoken ≤ y.config.millisPerOutputKilotoken
  secondPrice : x.config.millisPerSandboxSecond ≤ y.config.millisPerSandboxSecond
  hit : x.tokens.inputCacheHitTokens ≤ y.tokens.inputCacheHitTokens
  miss : x.tokens.inputCacheMissTokens ≤ y.tokens.inputCacheMissTokens
  output : x.tokens.outputTokens ≤ y.tokens.outputTokens
  seconds : x.sandboxSeconds ≤ y.sandboxSeconds

instance : LE Consumption := ⟨Le⟩

def credits (x : Consumption) : ℤ := creditsForSettlement x.config x.tokens x.sandboxSeconds

/-- The price of the input tokens read from the cache, in millionths of a credit. -/
def hitMicros (x : Consumption) : ℤ :=
  x.tokens.inputCacheHitTokens * x.config.millisPerInputCacheHitKilotoken

def missMicros (x : Consumption) : ℤ :=
  x.tokens.inputCacheMissTokens * x.config.millisPerInputCacheMissKilotoken

def outputMicros (x : Consumption) : ℤ := x.tokens.outputTokens * x.config.millisPerOutputKilotoken

def sandboxMillis (x : Consumption) : ℤ := x.sandboxSeconds * x.config.millisPerSandboxSecond

/-- The exact cost in credits. -/
def cost (x : Consumption) : ℚ :=
  ((x.hitMicros + x.missMicros + x.outputMicros : ℤ) : ℚ) / 10 ^ 6 + (x.sandboxMillis : ℚ) / 10 ^ 3

/-- The token terms, each rounded down to thousandths of a credit. -/
def tokenMillis (x : Consumption) : ℤ := x.hitMicros / 1000 + x.missMicros / 1000 + x.outputMicros / 1000

/-- What rounding the token terms down loses, in millionths of a credit. -/
def lost (x : Consumption) : ℤ := x.hitMicros % 1000 + x.missMicros % 1000 + x.outputMicros % 1000

/-- How far the tokens and the sandbox are from whole credits, in thousandths of a credit. -/
def room (x : Consumption) : ℤ := -x.tokenMillis % 1000 + -x.sandboxMillis % 1000

variable (x y : Consumption)

theorem credits_eq : x.credits = (x.tokenMillis + 999) / 1000 + (x.sandboxMillis + 999) / 1000 := by
  rw [credits, creditsForSettlement, creditsForTokens, creditsForSandboxSeconds, max_eq_left x.hit,
    max_eq_left x.miss, max_eq_left x.output, max_eq_left x.seconds]
  rfl

theorem micros_eq :
    x.hitMicros + x.missMicros + x.outputMicros + 1000 * x.sandboxMillis =
      1000 * x.tokenMillis + x.lost + 1000 * x.sandboxMillis := by
  rw [tokenMillis, lost]
  omega

theorem cost_mul : x.cost * 10 ^ 6 = ((1000 * x.tokenMillis + x.lost + 1000 * x.sandboxMillis : ℤ) : ℚ) := by
  rw [← micros_eq, cost]
  push_cast
  ring

theorem credits_mul : 10 ^ 6 * x.credits = 1000 * (x.tokenMillis + x.sandboxMillis + x.room) := by
  rw [credits_eq, room]
  omega

theorem cost_le_iff : x.cost ≤ x.credits ↔ x.lost ≤ 1000 * x.room := by
  have hcredits := x.credits_mul
  have hscale : x.cost ≤ x.credits ↔ x.cost * 10 ^ 6 ≤ ((10 ^ 6 * x.credits : ℤ) : ℚ) := by
    push_cast
    constructor <;> intro h <;> linarith
  rw [hscale, cost_mul, Int.cast_le]
  omega

theorem credits_lt : (x.credits : ℚ) < x.cost + 2 := by
  have hcredits := x.credits_mul
  have hlost : 0 ≤ x.lost := by rw [lost]; omega
  have hroom : x.room ≤ 1998 := by rw [room]; omega
  have hmicros : 10 ^ 6 * x.credits <
      1000 * x.tokenMillis + x.lost + 1000 * x.sandboxMillis + 2 * 10 ^ 6 := by omega
  have hcast := (Int.cast_lt (R := ℚ)).mpr hmicros
  have hcost := x.cost_mul
  push_cast at hcast hcost
  linarith

/-- Under-charging stays below three thousandths of a credit, one for each term rounded down. -/
theorem cost_lt : x.cost < x.credits + 3 / 1000 := by
  have hcredits := x.credits_mul
  have hlost : x.lost < 3000 := by rw [lost]; omega
  have hroom : 0 ≤ x.room := by rw [room]; omega
  have hmicros : 1000 * x.tokenMillis + x.lost + 1000 * x.sandboxMillis < 10 ^ 6 * x.credits + 3000 := by omega
  have hcast := (Int.cast_lt (R := ℚ)).mpr hmicros
  have hcost := x.cost_mul
  push_cast at hcast hcost
  linarith

variable {x y}

theorem tokenMillis_mono (h : x ≤ y) : x.tokenMillis ≤ y.tokenMillis := by
  have hhit : x.hitMicros ≤ y.hitMicros := mul_le_mul h.hit h.hitPrice x.hitPrice y.hit
  have hmiss : x.missMicros ≤ y.missMicros := mul_le_mul h.miss h.missPrice x.missPrice y.miss
  have houtput : x.outputMicros ≤ y.outputMicros := mul_le_mul h.output h.outputPrice x.outputPrice y.output
  rw [tokenMillis, tokenMillis]
  omega

theorem sandboxMillis_mono (h : x ≤ y) : x.sandboxMillis ≤ y.sandboxMillis :=
  mul_le_mul h.seconds h.secondPrice x.secondPrice y.seconds

theorem credits_mono (h : x ≤ y) : x.credits ≤ y.credits := by
  have htokens := tokenMillis_mono h
  have hsandbox := sandboxMillis_mono h
  rw [credits_eq, credits_eq]
  omega

end Consumption

/-- A settlement charges at least the cost and less than two credits above it, and never less for more, exactly when the room up to whole credits covers what rounding the token terms down has lost. -/
theorem settlement_rounded (x : Consumption) :
    (x.cost ≤ x.credits ∧ (x.credits : ℚ) < x.cost + 2 ∧ ∀ y, x ≤ y → x.credits ≤ y.credits) ↔
      x.lost ≤ 1000 * x.room := by
  constructor
  · intro h
    exact x.cost_le_iff.mp h.1
  · intro h
    exact ⟨x.cost_le_iff.mpr h, x.credits_lt, fun y hle => Consumption.credits_mono hle⟩

/-- A thousand output tokens and one token read from the cache, at the default prices. -/
def oneTokenOver : Consumption where
  config := {}
  tokens := { inputCacheHitTokens := 1, outputTokens := 1000 }
  sandboxSeconds := 0
  hitPrice := by decide
  missPrice := by decide
  outputPrice := by decide
  secondPrice := by decide
  hit := by decide
  miss := by decide
  output := by decide
  seconds := by decide

/-- The one token is rounded away, and the thousand are exactly one credit. -/
theorem settlement_undercharged :
    oneTokenOver.credits = 1 ∧ oneTokenOver.cost = 1 + 5 / 10 ^ 5 ∧ ¬ oneTokenOver.cost ≤ oneTokenOver.credits := by
  refine ⟨by decide, ?_, ?_⟩
  · rw [Consumption.cost, show oneTokenOver.hitMicros + oneTokenOver.missMicros + oneTokenOver.outputMicros =
      1000050 by decide, show oneTokenOver.sandboxMillis = 0 by decide]
    norm_num
  · rw [Consumption.cost_le_iff]
    decide

/-- Whatever is consumed, a settlement charges less than two credits too much and less than three thousandths of a credit too little, and never less for more. -/
theorem settlement_bounded (x : Consumption) : x.cost < x.credits + 3 / 1000 ∧ (x.credits : ℚ) < x.cost + 2 ∧
    ∀ y, x ≤ y → x.credits ≤ y.credits :=
  ⟨x.cost_lt, x.credits_lt, fun _ => Consumption.credits_mono⟩

end BotCord.Usage
