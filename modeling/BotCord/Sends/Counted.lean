import BotCord.Sends.Specs
import Mathlib.Data.List.Induction

/-!
# What rejected sends cost

A worker's log is every attempt so far with its outcome, next to the anti-spam state they left. The windows hold the attempts that passed their limit, whatever became of them afterwards; the caches hold the room messages that passed the room's own checks.
-/

namespace BotCord.Sends

structure Step where
  attempt : Attempt
  outcome : Except SendError Delivery

structure Log (σ₁ σ₂ : Type) where
  steps : List Step
  state : AntiSpam σ₁ σ₂

variable {σ₁ σ₂ : Type} (env : Env σ₁ σ₂)

def Log.next (log : Log σ₁ σ₂) (a : Attempt) : Log σ₁ σ₂ where
  steps := log.steps ++ [⟨a, (sendMessage env a log.state).1⟩]
  state := (sendMessage env a log.state).2

def Log.all (log : Log σ₁ σ₂) (attempts : List Attempt) : Log σ₁ σ₂ := attempts.foldl (Log.next env) log

/-- Everything a worker has been asked to send since it started. -/
def sendAll (attempts : List Attempt) : Log σ₁ σ₂ := Log.all env ⟨[], AntiSpam.start env⟩ attempts

/-- Each attempt starts when the one before it is through. -/
def InOrder (attempts : List Attempt) : Prop := attempts.Pairwise fun a b => a.clock.recorded ≤ b.clock.limits
deriving Decidable

namespace Step

/-- The attempt was not turned away before or by the limit of its agent. -/
def PassedAgentLimit (x : Step) : Prop := match x.outcome with
  | .ok _ => True
  | .error e => ¬ e.BeforeAgentLimit

/-- Nor by the limit of its pair, which an empty recipient is not asked about. -/
def PassedPairLimit (x : Step) : Prop := x.attempt.envelope.recipient ≠ "" ∧ match x.outcome with
  | .ok _ => True
  | .error e => ¬ e.BeforePairLimit

def Recorded (x : Step) : Prop := x.attempt.RecordedBy x.outcome
deriving Decidable

def Stored (x : Step) : Prop := x.outcome = .ok .queued
deriving Decidable

instance : DecidablePred PassedAgentLimit
  | ⟨_, .ok _⟩ => isTrue trivial
  | ⟨_, .error e⟩ => inferInstanceAs (Decidable (¬ e.BeforeAgentLimit))

instance : DecidablePred PassedPairLimit
  | ⟨_, .ok _⟩ => inferInstanceAs (Decidable (_ ∧ True))
  | ⟨_, .error e⟩ => inferInstanceAs (Decidable (_ ∧ ¬ e.BeforePairLimit))

def pair (x : Step) : AgentId × String := (x.attempt.currentAgent, x.attempt.envelope.recipient)

end Step

def times (p : Step → Prop) [DecidablePred p] (steps : List Step) : List Time :=
  (steps.filter (p ·)).map (·.attempt.clock.limits)

def agentTimes (steps : List Step) (agentId : AgentId) : List Time :=
  times (fun x => x.PassedAgentLimit ∧ x.attempt.currentAgent = agentId) steps

def pairTimes (steps : List Step) (pair : AgentId × String) : List Time :=
  times (fun x => x.PassedPairLimit ∧ x.pair = pair) steps

def slowWrites (steps : List Step) : List (Cache.Write (RoomId × AgentId) Time Time) :=
  steps.map fun x =>
    ⟨(x.attempt.envelope.recipient, x.attempt.envelope.sender), x.attempt.clock.recorded, x.attempt.clock.recorded⟩

/-- What it leaves in the cache of the content hashes, where its content is checked. -/
def hashWrites (steps : List Step) : List (Cache.Write (RoomId × AgentId) ContentHash Time) :=
  (steps.filter (·.attempt.ContentChecked)).map fun x =>
    ⟨(x.attempt.envelope.recipient, x.attempt.envelope.sender), env.contentHash x.attempt.envelope.payload,
      x.attempt.clock.content⟩

theorem times_snoc (p : Step → Prop) [DecidablePred p] (steps : List Step) (x : Step) :
    times p (steps ++ [x]) = times p steps ++ if p x then [x.attempt.clock.limits] else [] := by
  by_cases hp : p x <;> simp [times, hp]

variable {steps : List Step} {x : Step}

theorem agentTimes_snoc_of_passed (h : x.PassedAgentLimit) :
    agentTimes (steps ++ [x]) = Function.update (agentTimes steps) x.attempt.currentAgent
      (agentTimes steps x.attempt.currentAgent ++ [x.attempt.clock.limits]) := by
  funext agentId
  rw [agentTimes, times_snoc]
  by_cases hagent : x.attempt.currentAgent = agentId
  · subst hagent
    simp [h, agentTimes]
  · simp [h, hagent, agentTimes, Function.update_of_ne (Ne.symm hagent)]

theorem agentTimes_snoc_of_not (h : ¬ x.PassedAgentLimit) :
    agentTimes (steps ++ [x]) = agentTimes steps := by
  funext agentId
  simp [agentTimes, times_snoc, h]

theorem pairTimes_snoc_of_passed (h : x.PassedPairLimit) :
    pairTimes (steps ++ [x]) = Function.update (pairTimes steps) x.pair
      (pairTimes steps x.pair ++ [x.attempt.clock.limits]) := by
  funext pair
  rw [pairTimes, times_snoc]
  by_cases hpair : x.pair = pair
  · subst hpair
    simp [h, pairTimes]
  · simp [h, hpair, pairTimes, Function.update_of_ne (Ne.symm hpair)]

theorem pairTimes_snoc_of_not (h : ¬ x.PassedPairLimit) :
    pairTimes (steps ++ [x]) = pairTimes steps := by
  funext pair
  simp [pairTimes, times_snoc, h]

variable {env}

structure Accounted (env : Env σ₁ σ₂) (log : Log σ₁ σ₂) (now : Time) : Prop where
  agents : Window.Kept RATE_LIMIT_PER_MINUTE minute (agentTimes log.steps) log.state.rateWindows now
  pairs : Window.Kept env.PAIR_RATE_LIMIT_PER_MINUTE minute (pairTimes log.steps) log.state.pairRateWindows now
  slowModeLastSend : env.slowModeLastSend.Reflects (3600 * second) (slowWrites (log.steps.filter (·.Recorded)))
    log.state.slowModeLastSend now
  lastMsgHash : env.lastMsgHash.Reflects (300 * second) (hashWrites env (log.steps.filter (·.Recorded)))
    log.state.lastMsgHash now

theorem Accounted.start (henv : env.Lawful) (now : Time) : Accounted env ⟨[], AntiSpam.start env⟩ now :=
  ⟨Window.Kept.start, Window.Kept.start, henv.slowModeLastSend.reflects_empty now, henv.lastMsgHash.reflects_empty now⟩

variable {log : Log σ₁ σ₂}

theorem Accounted.later {now next : Time} (h : Accounted env log now) (hle : now ≤ next) :
    Accounted env log next :=
  ⟨h.agents.later hle, h.pairs.later hle, h.slowModeLastSend.later hle, h.lastMsgHash.later hle⟩

theorem filter_recorded_snoc (steps : List Step) (x : Step) :
    (steps ++ [x]).filter (·.Recorded) = steps.filter (·.Recorded) ++ if x.Recorded then [x] else [] := by
  by_cases hx : x.Recorded <;> simp [hx]

variable {now : Time}

theorem Accounted.caches_of_same {t : AntiSpam σ₁ σ₂}
    (h : Accounted env log now) (hx : ¬ x.Recorded)
    (hslow : env.slowModeLastSend.Same log.state.slowModeLastSend t.slowModeLastSend now)
    (hhash : env.lastMsgHash.Same log.state.lastMsgHash t.lastMsgHash now) :
    env.slowModeLastSend.Reflects (3600 * second) (slowWrites ((log.steps ++ [x]).filter (·.Recorded)))
        t.slowModeLastSend now ∧
      env.lastMsgHash.Reflects (300 * second) (hashWrites env ((log.steps ++ [x]).filter (·.Recorded)))
        t.lastMsgHash now := by
  rw [filter_recorded_snoc, if_neg hx, List.append_nil]
  exact ⟨h.slowModeLastSend.congr hslow, h.lastMsgHash.congr hhash⟩

theorem Accounted.caches_of_recorded (henv : env.Lawful)
    {s t : AntiSpam σ₁ σ₂} (h : Accounted env log now) (hx : x.Recorded) (hnow : now ≤ x.attempt.clock.limits)
    (hslow : s.slowModeLastSend = log.state.slowModeLastSend) (hhash : s.lastMsgHash = log.state.lastMsgHash)
    (hrecorded : Sends.Recorded env x.attempt s t) :
    env.slowModeLastSend.Reflects (3600 * second) (slowWrites ((log.steps ++ [x]).filter (·.Recorded)))
        t.slowModeLastSend x.attempt.clock.recorded ∧
      env.lastMsgHash.Reflects (300 * second) (hashWrites env ((log.steps ++ [x]).filter (·.Recorded)))
        t.lastMsgHash x.attempt.clock.recorded := by
  obtain ⟨hlimits, hslowContent, hcontent⟩ := x.attempt.clock.ordered
  rw [filter_recorded_snoc, if_pos hx]
  constructor
  · obtain ⟨cache, hsame, hset⟩ := hrecorded.slowModeLastSend
    rw [hslow] at hsame
    rw [hset, slowWrites, List.map_append]
    have hread := (h.slowModeLastSend.later (hnow.trans hlimits)).congr hsame
    exact (hread.later (hslowContent.trans hcontent)).set henv.slowModeLastSend _ _
  · have hsplit : hashWrites env (log.steps.filter (·.Recorded) ++ [x]) =
        hashWrites env (log.steps.filter (·.Recorded)) ++ hashWrites env [x] := by
      simp [hashWrites]
    rw [hsplit]
    have hlast := hrecorded.lastMsgHash
    by_cases hchecked : x.attempt.ContentChecked
    · rw [if_pos hchecked] at hlast
      obtain ⟨cache, hsame, hset⟩ := hlast
      rw [hhash] at hsame
      have hone : hashWrites env [x] = [⟨(x.attempt.envelope.recipient, x.attempt.envelope.sender),
          env.contentHash x.attempt.envelope.payload, x.attempt.clock.content⟩] := by
        simp [hashWrites, hchecked]
      rw [hset, hone]
      have hread := (h.lastMsgHash.later (hnow.trans (hlimits.trans hslowContent))).congr hsame
      exact (hread.set henv.lastMsgHash _ _).later hcontent
    · rw [if_neg hchecked] at hlast
      have hnone : hashWrites env [x] = [] := by simp [hashWrites, hchecked]
      rw [hlast, hhash, hnone, List.append_nil]
      exact h.lastMsgHash.later (hnow.trans (hlimits.trans (hslowContent.trans hcontent)))

theorem Clock.limits_le_recorded (clock : Clock) : clock.limits ≤ clock.recorded :=
  clock.ordered.1.trans (clock.ordered.2.1.trans clock.ordered.2.2)

theorem Accounted.turnedAway {a : Attempt} {e : SendError} {t : AntiSpam σ₁ σ₂}
    (h : Accounted env log now) (he : e.BeforePairLimit) (hslow : t.slowModeLastSend = log.state.slowModeLastSend)
    (hhash : t.lastMsgHash = log.state.lastMsgHash)
    (hagents : Window.Kept RATE_LIMIT_PER_MINUTE minute (agentTimes (log.steps ++ [⟨a, .error e⟩])) t.rateWindows now)
    (hpairs : Window.Kept env.PAIR_RATE_LIMIT_PER_MINUTE minute (pairTimes log.steps) t.pairRateWindows now) :
    Accounted env ⟨log.steps ++ [⟨a, .error e⟩], t⟩ now := by
  have hpair : ¬ (⟨a, .error e⟩ : Step).PassedPairLimit := fun hpassed => hpassed.2 he
  have hrecorded : ¬ (⟨a, .error e⟩ : Step).Recorded := fun hrecorded => he.not_afterChecks hrecorded.2
  have hcaches := h.caches_of_same (t := t) hrecorded (hslow ▸ Cache.Same.refl _ _) (hhash ▸ Cache.Same.refl _ _)
  exact ⟨hagents, (pairTimes_snoc_of_not hpair).symm ▸ hpairs, hcaches.1, hcaches.2⟩

theorem Accounted.next (henv : env.Lawful) {a : Attempt} (h : Accounted env log now)
    (hnow : now ≤ a.clock.limits) : Accounted env (log.next env a) a.clock.recorded := by
  have hlater := a.clock.limits_le_recorded
  replace h := h.later hnow
  rcases sendMessage_cases env a log.state with
    ⟨e, hsend, he⟩ | ⟨e, hsend, he⟩ | ⟨hroom, e, hsend, hpassed, he⟩ | ⟨hroom, hpair, hsend⟩
  · have hagent : ¬ (⟨a, .error e⟩ : Step).PassedAgentLimit := not_not_intro he
    rw [Log.next, hsend]
    refine (h.turnedAway he.beforePairLimit rfl rfl ?_ h.pairs).later hlater
    rw [agentTimes_snoc_of_not hagent]
    exact h.agents
  · have hagent : ¬ (⟨a, .error e⟩ : Step).PassedAgentLimit := not_not_intro he
    rw [Log.next, hsend]
    refine (h.turnedAway (t := log.state.trimmed a) he.beforePairLimit rfl rfl ?_ h.pairs).later hlater
    rw [agentTimes_snoc_of_not hagent]
    exact h.agents.trim a.currentAgent
  · have hagent : (⟨a, .error e⟩ : Step).PassedAgentLimit := hpassed
    rw [Log.next, hsend]
    refine (h.turnedAway (t := log.state.turnedAway a) he rfl rfl ?_ (h.pairs.trim _)).later hlater
    rw [agentTimes_snoc_of_passed hagent]
    exact h.agents.push a.currentAgent hroom
  · have hcases := deliver_cases henv a (log.state.admitted a)
    have hpassed : ∀ e, (deliver env a (log.state.admitted a)).1 = .error e → ¬ e.BeforePairLimit :=
      fun e he => deliver_error henv he
    rw [Log.next, hsend]
    generalize deliver env a (log.state.admitted a) = result at hcases hpassed
    obtain ⟨outcome, t⟩ := result
    have hagent : (⟨a, outcome⟩ : Step).PassedAgentLimit := by
      cases outcome with
      | ok _ => trivial
      | error e => exact fun hbefore => hpassed e rfl hbefore.beforePairLimit
    have hwindows : t.rateWindows = (log.state.admitted a).rateWindows ∧
        t.pairRateWindows = (log.state.admitted a).pairRateWindows := by
      rcases hcases with ⟨-, hrecorded⟩ | ⟨-, hsame⟩
      · exact ⟨hrecorded.rateWindows, hrecorded.pairRateWindows⟩
      · exact ⟨hsame.rateWindows, hsame.pairRateWindows⟩
    have hcaches : env.slowModeLastSend.Reflects (3600 * second)
          (slowWrites ((log.steps ++ [(⟨a, outcome⟩ : Step)]).filter (·.Recorded))) t.slowModeLastSend a.clock.recorded ∧
        env.lastMsgHash.Reflects (300 * second)
          (hashWrites env ((log.steps ++ [(⟨a, outcome⟩ : Step)]).filter (·.Recorded))) t.lastMsgHash a.clock.recorded := by
      rcases hcases with ⟨hrecords, hrecorded⟩ | ⟨hrecords, hsame⟩
      · exact h.caches_of_recorded henv (x := ⟨a, outcome⟩) (s := log.state.admitted a) hrecords le_rfl rfl rfl hrecorded
      · exact (h.later hlater).caches_of_same hrecords hsame.slowModeLastSend hsame.lastMsgHash
    refine ⟨?_, ?_, hcaches.1, hcaches.2⟩
    · rw [hwindows.1, agentTimes_snoc_of_passed hagent]
      exact (h.agents.push a.currentAgent hroom).later hlater
    · rw [hwindows.2]
      by_cases hempty : a.envelope.recipient = ""
      · rw [pairTimes_snoc_of_not fun hpassed => hpassed.1 hempty, AntiSpam.admitted, if_pos hempty]
        exact h.pairs.later hlater
      · have hpassedPair : (⟨a, outcome⟩ : Step).PassedPairLimit := by
          refine ⟨hempty, ?_⟩
          cases outcome with
          | ok _ => trivial
          | error e => exact hpassed e rfl
        rw [pairTimes_snoc_of_passed hpassedPair, AntiSpam.admitted, if_neg hempty]
        exact (h.pairs.push _ (hpair hempty)).later hlater

theorem sendAll_snoc (attempts : List Attempt) (a : Attempt) :
    sendAll env (attempts ++ [a]) = (sendAll env attempts).next env a := by
  simp [sendAll, Log.all]

theorem sendAll_accounted (henv : env.Lawful) {attempts : List Attempt} (horder : InOrder attempts)
    (hnow : ∀ a ∈ attempts, a.clock.recorded ≤ now) : Accounted env (sendAll env attempts) now := by
  induction attempts using List.reverseRecOn generalizing now with
  | nil => exact Accounted.start henv now
  | append_singleton front a ih =>
    obtain ⟨hfront, -, hlast⟩ := List.pairwise_append.mp horder
    have hbefore : Accounted env (sendAll env front) a.clock.limits := ih hfront fun b hb => hlast b hb a (by simp)
    rw [sendAll_snoc]
    exact (hbefore.next henv le_rfl).later (hnow a (by simp))

end BotCord.Sends
