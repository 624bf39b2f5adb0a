import BotCord.Sends.Counted

/-!
# The cost of a rejected send

What a rejected attempt costs depends on what rejected it. An attempt that fails before its agent's limit or at it is as if it had not been made; one that fails later still counts in the windows it passed; and no attempt that the anti-spam checks of a room turn away is seen in the caches.
-/

namespace BotCord.Sends

variable {σ₁ σ₂ : Type} {env : Env σ₁ σ₂}

/-- Two states that agree from now on: one may hold times that are too old to count. -/
structure AntiSpam.Agree (s t : AntiSpam σ₁ σ₂) (now : Time) : Prop where
  same : t = s.withWindows t.rateWindows
  live : ∀ agentId later, now ≤ later →
    Window.live minute later (t.rateWindows agentId) = Window.live minute later (s.rateWindows agentId)

variable {s t : AntiSpam σ₁ σ₂}

theorem AntiSpam.Agree.later {now next : Time} (h : AntiSpam.Agree s t now) (hle : now ≤ next) :
    AntiSpam.Agree s t next :=
  ⟨h.same, fun agentId later hlater => h.live agentId later (hle.trans hlater)⟩

variable {a : Attempt}

theorem AntiSpam.Agree.sendMessage (env : Env σ₁ σ₂) (h : AntiSpam.Agree s t a.clock.limits) :
    (sendMessage env a t).1 = (sendMessage env a s).1 ∧
      AntiSpam.Agree (sendMessage env a s).2 (sendMessage env a t).2 a.clock.limits := by
  obtain ⟨hsame, hlive⟩ := h
  rw [hsame]
  generalize t.rateWindows = windows at hlive
  unfold Sends.sendMessage
  cases checkEnvelope a with
  | error e => exact ⟨rfl, rfl, hlive⟩
  | ok _ =>
    dsimp only
    rw [checkRateLimit_withWindows (hlive a.currentAgent _ le_rfl)]
    have hother : ∀ agentId, agentId ≠ a.currentAgent →
        (checkRateLimit env a.currentAgent a.envelope.recipient a.clock.limits s).2.rateWindows agentId =
          s.rateWindows agentId := by
      intro agentId hne
      rcases checkRateLimit_cases env a.currentAgent a.envelope.recipient a.clock.limits s with
        ⟨-, hresult⟩ | ⟨-, -, -, hresult⟩ | ⟨-, -, hresult⟩ | ⟨-, -, -, hresult⟩ <;>
      rw [hresult] <;> exact Function.update_of_ne hne _ _
    have hafter : ∀ agentId later, a.clock.limits ≤ later →
        Window.live minute later (Function.update windows a.currentAgent
          ((checkRateLimit env a.currentAgent a.envelope.recipient a.clock.limits s).2.rateWindows a.currentAgent)
          agentId) =
        Window.live minute later
          ((checkRateLimit env a.currentAgent a.envelope.recipient a.clock.limits s).2.rateWindows agentId) := by
      intro agentId later hlater
      by_cases hagent : agentId = a.currentAgent
      · subst hagent
        rw [Function.update_self]
      · rw [Function.update_of_ne hagent, hother agentId hagent]
        exact hlive agentId later hlater
    generalize Function.update windows a.currentAgent
      ((checkRateLimit env a.currentAgent a.envelope.recipient a.clock.limits s).2.rateWindows a.currentAgent) = after
      at hafter
    generalize checkRateLimit env a.currentAgent a.envelope.recipient a.clock.limits s = result at hafter
    rcases result with ⟨_ | _, m⟩
    · exact ⟨rfl, rfl, hafter⟩
    · dsimp only
      rw [deliver_withWindows]
      refine ⟨rfl, rfl, fun agentId later hlater => ?_⟩
      rw [rateWindows_deliver]
      exact hafter agentId later hlater

def replies (env : Env σ₁ σ₂) : AntiSpam σ₁ σ₂ → List Attempt → List Step
  | _, [] => []
  | s, a :: rest => ⟨a, (sendMessage env a s).1⟩ :: replies env (sendMessage env a s).2 rest

theorem steps_all (log : Log σ₁ σ₂) (attempts : List Attempt) :
    (log.all env attempts).steps = log.steps ++ replies env log.state attempts := by
  induction attempts generalizing log with
  | nil => simp [Log.all, replies]
  | cons a rest ih =>
    have hall : log.all env (a :: rest) = (log.next env a).all env rest := rfl
    rw [hall, ih, Log.next, replies, List.append_assoc, List.singleton_append]

theorem length_replies (s : AntiSpam σ₁ σ₂) (attempts : List Attempt) :
    (replies env s attempts).length = attempts.length := by
  induction attempts generalizing s with
  | nil => rfl
  | cons a rest ih => rw [replies, List.length_cons, ih, List.length_cons]

theorem all_append (log : Log σ₁ σ₂) (front back : List Attempt) :
    log.all env (front ++ back) = (log.all env front).all env back := List.foldl_append ..

variable {attempts : List Attempt}

theorem AntiSpam.Agree.replies {now : Time}
    (h : AntiSpam.Agree s t now) (horder : InOrder attempts) (hnow : ∀ a ∈ attempts, now ≤ a.clock.limits) :
    replies env t attempts = replies env s attempts := by
  induction attempts generalizing s t now with
  | nil => rfl
  | cons a rest ih =>
    rw [InOrder, List.pairwise_cons] at horder
    obtain ⟨hanswer, hagree⟩ := (h.later (hnow a List.mem_cons_self)).sendMessage env
    rw [Sends.replies, Sends.replies, hanswer]
    exact congrArg _ (ih hagree horder.2 fun b hb => a.clock.limits_le_recorded.trans (horder.1 b hb))

/-- An attempt that its agent's limit did not pass leaves a state that agrees with the one before it. -/
theorem agree_of_not_passed (henv : env.Lawful) {s : AntiSpam σ₁ σ₂}
    (h : ¬ (⟨a, (sendMessage env a s).1⟩ : Step).PassedAgentLimit) :
    AntiSpam.Agree s (sendMessage env a s).2 a.clock.limits := by
  rcases sendMessage_cases env a s with ⟨e, hsend, -⟩ | ⟨e, hsend, -⟩ | ⟨-, e, hsend, hpassed, -⟩ | ⟨-, -, hsend⟩
  · rw [hsend]
    exact ⟨rfl, fun _ _ _ => rfl⟩
  · rw [hsend]
    refine ⟨rfl, fun agentId later hlater => ?_⟩
    change Window.live minute later (Function.update s.rateWindows a.currentAgent (s.window a) agentId) = _
    by_cases hagent : agentId = a.currentAgent
    · subst hagent
      rw [Function.update_self]
      exact Window.live_live hlater _
    · rw [Function.update_of_ne hagent]
  · rw [hsend] at h
    exact absurd hpassed h
  · rw [hsend] at h
    cases hdelivery : (deliver env a (s.admitted a)).1 with
    | ok _ =>
      rw [hdelivery] at h
      exact absurd trivial h
    | error e =>
      rw [hdelivery] at h
      exact absurd (fun hbefore => deliver_error henv hdelivery hbefore.beforePairLimit) h

theorem steps_eraseIdx (henv : env.Lawful) {front rest : List Attempt}
    (horder : InOrder (front ++ a :: rest))
    (h : ¬ (⟨a, (sendMessage env a (sendAll env front).state).1⟩ : Step).PassedAgentLimit) :
    (sendAll env (front ++ a :: rest)).steps.eraseIdx front.length = (sendAll env (front ++ rest)).steps := by
  have hagree := agree_of_not_passed henv h
  have hback : InOrder (a :: rest) := (List.pairwise_append.mp horder).2.1
  rw [InOrder, List.pairwise_cons] at hback
  have hrest : replies env (sendMessage env a (sendAll env front).state).2 rest =
      replies env (sendAll env front).state rest :=
    hagree.replies hback.2 fun b hb => a.clock.limits_le_recorded.trans (hback.1 b hb)
  have hlength : (sendAll env front).steps.length = front.length := by
    rw [sendAll, steps_all, List.nil_append, length_replies]
  have hwith : (sendAll env (front ++ a :: rest)).steps = (sendAll env front).steps ++
      ⟨a, (sendMessage env a (sendAll env front).state).1⟩ ::
        replies env (sendMessage env a (sendAll env front).state).2 rest := by
    rw [sendAll, all_append, steps_all]
    rfl
  have hwithout : (sendAll env (front ++ rest)).steps = (sendAll env front).steps ++
      replies env (sendAll env front).state rest := by
    rw [sendAll, all_append, steps_all]
    rfl
  rw [hwith, hwithout, ← hlength, List.eraseIdx_append_of_length_le le_rfl, Nat.sub_self, List.eraseIdx_zero,
    List.tail_cons, hrest]

variable {x : Step}

theorem mem_replies {s : AntiSpam σ₁ σ₂} (h : x ∈ replies env s attempts) :
    ∃ a t, x = ⟨a, (sendMessage env a t).1⟩ := by
  induction attempts generalizing s with
  | nil => cases h
  | cons a rest ih =>
    rcases List.mem_cons.mp h with rfl | hrest
    · exact ⟨a, s, rfl⟩
    · exact ih hrest

theorem Step.Stored.passedAgentLimit (h : x.Stored) : x.PassedAgentLimit := by
  obtain ⟨a, outcome⟩ := x
  cases h
  trivial

theorem passedPairLimit_of_stored (hx : x ∈ (sendAll env attempts).steps)
    (h : x.Stored) : x.PassedPairLimit := by
  rw [sendAll, steps_all, List.nil_append] at hx
  obtain ⟨a, s, rfl⟩ := mem_replies hx
  have hstored : (sendMessage env a s).1 = .ok .queued := h
  refine ⟨?_, by rw [hstored]; trivial⟩
  rcases sendMessage_cases env a s with ⟨e, hsend, -⟩ | ⟨e, hsend, -⟩ | ⟨-, e, hsend, -, -⟩ | ⟨-, -, hsend⟩
  · rw [hsend] at hstored
    cases hstored
  · rw [hsend] at hstored
    cases hstored
  · rw [hsend] at hstored
    cases hstored
  · rw [hsend] at hstored
    exact deliver_queued hstored

theorem times_sublist {p q : Step → Prop} [DecidablePred p] [DecidablePred q] {steps : List Step}
    (h : ∀ x ∈ steps, p x → q x) : List.Sublist (times p steps) (times q steps) := by
  apply List.Sublist.map
  induction steps with
  | nil => exact List.Sublist.slnil
  | cons x rest ih =>
    have ih := ih fun y hy => h y (List.mem_cons_of_mem x hy)
    by_cases hp : p x
    · simpa [hp, h x List.mem_cons_self hp] using ih
    · by_cases hq : q x
      · simpa [hp, hq] using ih.cons x
      · simpa [hp, hq] using ih

def storedByAgent (steps : List Step) (agentId : AgentId) : List Time :=
  times (fun x => x.Stored ∧ x.attempt.currentAgent = agentId) steps

def storedByPair (steps : List Step) (pair : AgentId × String) : List Time :=
  times (fun x => x.Stored ∧ x.pair = pair) steps

def Step.StoredInRoom (x : Step) : Prop := x.Stored ∧ x.attempt.envelope.recipient.startsWith "rm_"

/-- No message in a room, or rejected by one of the anti-spam checks or before them. -/
def Step.LeavesNoMark (x : Step) : Prop := match x.outcome with
  | .ok .queued => ¬ x.attempt.envelope.recipient.startsWith "rm_"
  | .ok (.existing _) => True
  | .error e => ¬ e.AfterChecks

theorem Step.StoredInRoom.recorded (h : x.StoredInRoom) : x.Recorded := by
  obtain ⟨a, outcome⟩ := x
  obtain ⟨hstored, hroom⟩ := h
  cases hstored
  exact ⟨hroom, trivial⟩

theorem Step.LeavesNoMark.not_recorded (h : x.LeavesNoMark) : ¬ x.Recorded := by
  obtain ⟨a, _ | _ | _⟩ := x
  · exact fun hrecorded => h hrecorded.2
  · exact fun hrecorded => h hrecorded.1
  · exact fun hrecorded => hrecorded.2

/-- What a list of attempts in order leaves, and what it has cost. -/
structure Account (env : Env σ₁ σ₂) (attempts : List Attempt) (now : Time) : Prop where
  /-- A window holds the recent attempts of its agent that its limit passed. -/
  rateWindows : ∀ agentId, Window.live minute now ((sendAll env attempts).state.rateWindows agentId) =
    Window.within minute now (agentTimes (sendAll env attempts).steps agentId)
  /-- A window of a pair holds those that both limits passed. -/
  pairRateWindows : ∀ pair, Window.live minute now ((sendAll env attempts).state.pairRateWindows pair) =
    Window.within minute now (pairTimes (sendAll env attempts).steps pair)
  /-- The caches hold what room messages left that include every stored one. -/
  caches : ∃ counted : Step → Bool,
    (∀ x ∈ (sendAll env attempts).steps, x.StoredInRoom → counted x) ∧
    (∀ x ∈ (sendAll env attempts).steps, x.LeavesNoMark → ¬ counted x) ∧
    env.slowModeLastSend.Reflects (3600 * second) (slowWrites ((sendAll env attempts).steps.filter counted))
      (sendAll env attempts).state.slowModeLastSend now ∧
    env.lastMsgHash.Reflects (300 * second) (hashWrites env ((sendAll env attempts).steps.filter counted))
      (sendAll env attempts).state.lastMsgHash now
  /-- Without an attempt that its agent's limit did not pass, every other one is answered the same. -/
  free : ∀ front a rest, attempts = front ++ a :: rest →
    ¬ (⟨a, (sendMessage env a (sendAll env front).state).1⟩ : Step).PassedAgentLimit →
    (sendAll env attempts).steps.eraseIdx front.length = (sendAll env (front ++ rest)).steps
  /-- An attempt that leaves no mark leaves both caches answering as they did. -/
  unmarked : ∀ front a rest, attempts = front ++ a :: rest →
    (⟨a, (sendMessage env a (sendAll env front).state).1⟩ : Step).LeavesNoMark →
    env.slowModeLastSend.Same (sendAll env front).state.slowModeLastSend
        (sendAll env (front ++ [a])).state.slowModeLastSend a.clock.recorded ∧
      env.lastMsgHash.Same (sendAll env front).state.lastMsgHash (sendAll env (front ++ [a])).state.lastMsgHash
        a.clock.recorded
  /-- In any minute at most so many sends of one agent are stored. -/
  agentLimit : ∀ agentId,
    Window.Sparse RATE_LIMIT_PER_MINUTE minute (storedByAgent (sendAll env attempts).steps agentId)
  /-- And at most so many to one recipient. -/
  pairLimit : ∀ pair,
    Window.Sparse env.PAIR_RATE_LIMIT_PER_MINUTE minute (storedByPair (sendAll env attempts).steps pair)

theorem caches_same (henv : env.Lawful) {s : AntiSpam σ₁ σ₂}
    (h : ¬ (⟨a, (sendMessage env a s).1⟩ : Step).Recorded) :
    env.slowModeLastSend.Same s.slowModeLastSend (sendMessage env a s).2.slowModeLastSend a.clock.recorded ∧
      env.lastMsgHash.Same s.lastMsgHash (sendMessage env a s).2.lastMsgHash a.clock.recorded := by
  rcases sendMessage_cases env a s with ⟨e, hsend, -⟩ | ⟨e, hsend, -⟩ | ⟨-, e, hsend, -, -⟩ | ⟨-, -, hsend⟩
  · rw [hsend]
    exact ⟨Cache.Same.refl _ _, Cache.Same.refl _ _⟩
  · rw [hsend]
    exact ⟨Cache.Same.refl _ _, Cache.Same.refl _ _⟩
  · rw [hsend]
    exact ⟨Cache.Same.refl _ _, Cache.Same.refl _ _⟩
  · rw [hsend] at h ⊢
    rcases deliver_cases henv a (s.admitted a) with ⟨hrecords, -⟩ | ⟨-, hsame⟩
    · exact absurd hrecords h
    · exact ⟨hsame.slowModeLastSend, hsame.lastMsgHash⟩

/-- Every list of attempts in order keeps this account. -/
theorem sends_account (henv : env.Lawful) (attempts : List Attempt) (horder : InOrder attempts) (now : Time)
    (hnow : ∀ a ∈ attempts, a.clock.recorded ≤ now) : Account env attempts now := by
  have hacc := sendAll_accounted henv horder hnow
  refine ⟨fun agentId => (hacc.agents.tracks agentId).live_eq, fun pair => (hacc.pairs.tracks pair).live_eq,
    ⟨(·.Recorded), ?_, ?_, hacc.slowModeLastSend, hacc.lastMsgHash⟩, ?_, ?_, ?_, ?_⟩
  · exact fun x _ hx => decide_eq_true hx.recorded
  · exact fun x _ hx => by simpa using hx.not_recorded
  · rintro front a rest rfl hpassed
    exact steps_eraseIdx henv horder hpassed
  · rintro front a rest rfl hmark
    rw [sendAll_snoc]
    exact caches_same henv hmark.not_recorded
  · exact fun agentId => (hacc.agents.sparse agentId).sublist
      (times_sublist fun x _ hx => ⟨hx.1.passedAgentLimit, hx.2⟩)
  · exact fun pair => (hacc.pairs.sparse pair).sublist
      (times_sublist fun x hmem hx => ⟨passedPairLimit_of_stored hmem hx.1, hx.2⟩)

/-- A worker whose caches never fill, with the limit of pairs that the environment leaves. -/
def exampleEnv : Env (RoomId × AgentId → Option (Time × Time)) (RoomId × AgentId → Option (ContentHash × Time)) where
  PAIR_RATE_LIMIT_PER_MINUTE := 10
  slowModeLastSend := Cache.unbounded _ _ (3600 * second)
  lastMsgHash := Cache.unbounded _ _ (300 * second)
  contentHash payload := payload.text
  verifyPayloadHash _ _ := true
  verifyEnvelopeSig _ _ := true

theorem exampleEnv_lawful : exampleEnv.Lawful :=
  ⟨Cache.unbounded_lawful _ _ _, Cache.unbounded_lawful _ _ _⟩

/-- A message to an agent or a room, sent in some second. -/
def exampleMessage (recipient : String) (at_ : ℕ) : Attempt where
  currentAgent := "ag_a"
  envelope :=
    { msgId := "m", ts := at_, sender := "ag_a", recipient, payload := { text := "hello" }, payloadHash := "h"
      keyId := "k_a" }
  database :=
    { agents := [⟨"ag_b", by decide⟩, ⟨"ag_c", by decide⟩]
      rooms := [{ roomId := "rm_1", slowModeSeconds := some 5, members := [{ agentId := "ag_a" }] }]
      signingKeys := [{ keyId := "k_a", agentId := "ag_a", pubkey := "ed25519:a" }] }
  clock := ⟨at_ * second, at_ * second, at_ * second, at_ * second, le_rfl, le_rfl, le_rfl⟩
  serverTime := at_

theorem sends_account_room : Account exampleEnv [exampleMessage "ag_b" 0, exampleMessage "rm_1" 1, exampleMessage "rm_1" 2]
    (3 * second) :=
  sends_account exampleEnv_lawful _ (by decide +kernel) _ (by decide +kernel)

/-- Ten messages to an agent are stored and ten more turned away, and then one to another agent is turned away as well;
after the ten that were stored it is not. -/
theorem turned_away_counts :
    let stored := (List.range 10).map (exampleMessage "ag_b")
    let turnedAway := (List.range 10).map fun n => exampleMessage "ag_b" (10 + n)
    let last := exampleMessage "ag_c" 20
    InOrder (stored ++ turnedAway ++ [last]) ∧
      (sendAll exampleEnv (stored ++ turnedAway ++ [last])).steps.map (decide ·.Stored) =
        List.replicate 10 true ++ List.replicate 11 false ∧
      ((sendAll exampleEnv (stored ++ turnedAway ++ [last])).steps.getLast?.map (·.outcome)) =
        some (.error (.rateLimitExceeded 20 40)) ∧
      ((sendAll exampleEnv (stored ++ [last])).steps.getLast?.map (·.outcome)) = some (.ok .queued) := by
  refine ⟨?_, ?_, ?_, ?_⟩ <;> decide +kernel

end BotCord.Sends
