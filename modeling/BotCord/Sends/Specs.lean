import BotCord.Sends.Service

/-!
# What one attempt does to the anti-spam state

One lemma for each check says which windows and cache entries it touches and when it returns. Only the rate limits touch the windows, and of the caches a room message writes both or neither: it writes them once the slow mode and content checks have passed, before the quoted message and the response are looked at.
-/

namespace BotCord.Sends

variable {σ₁ σ₂ : Type} {env : Env σ₁ σ₂}

/-- The caches of the environment are caches with the lifetimes the code gives them. -/
structure Env.Lawful (env : Env σ₁ σ₂) : Prop where
  slowModeLastSend : env.slowModeLastSend.Lawful (3600 * second)
  lastMsgHash : env.lastMsgHash.Lawful (300 * second)

def SendError.BeforeAgentLimit : SendError → Prop
  | .senderDoesNotMatchToken | .sendInvalidType | .rateLimitExceeded _ _ => True
  | _ => False

def SendError.BeforePairLimit : SendError → Prop
  | .conversationRateLimitExceeded _ _ _ => True
  | e => e.BeforeAgentLimit

/-- Raised after a room message has passed its checks on the anti-spam state. -/
def SendError.AfterChecks : SendError → Prop
  | .replyTargetNotFound | .replyTargetCrossRoom | .response _ => True
  | _ => False

instance (e : SendError) : Decidable e.BeforeAgentLimit := by
  cases e <;> unfold SendError.BeforeAgentLimit <;> infer_instance

instance (e : SendError) : Decidable e.BeforePairLimit := by
  cases e <;> unfold SendError.BeforePairLimit SendError.BeforeAgentLimit <;> infer_instance

instance (e : SendError) : Decidable e.AfterChecks := by
  cases e <;> unfold SendError.AfterChecks <;> infer_instance

variable {e : SendError}

theorem SendError.BeforeAgentLimit.beforePairLimit (h : e.BeforeAgentLimit) : e.BeforePairLimit := by
  cases e <;> simp_all [BeforeAgentLimit, BeforePairLimit]

theorem SendError.BeforePairLimit.not_afterChecks (h : e.BeforePairLimit) : ¬ e.AfterChecks := by
  cases e <;> simp_all [BeforePairLimit, BeforeAgentLimit, AfterChecks]

variable {a : Attempt}

theorem checkEnvelope_error (h : checkEnvelope a = .error e) : e.BeforeAgentLimit := by
  unfold checkEnvelope at h
  split_ifs at h <;> cases h <;> trivial

theorem verifyEnvelope_error (h : verifyEnvelope env a = .error e) :
    ¬ e.BeforePairLimit ∧ ¬ e.AfterChecks := by
  unfold verifyEnvelope at h
  repeat' split at h
  all_goals first
    | (cases h; exact ⟨id, id⟩)
    | cases h

theorem retried_error (h : retried a = .error e) : e = .messageIdUsed := by
  unfold retried at h
  split at h
  · cases h
  · split at h
    · cases h
    · dsimp only at h
      split_ifs at h
      cases h
      rfl

theorem checkReplyTarget_error {roomId : Option RoomId}
    (h : checkReplyTarget a roomId = .error e) : e = .replyTargetNotFound ∨ e = .replyTargetCrossRoom := by
  unfold checkReplyTarget loadReplyTarget at h
  repeat' split at h
  all_goals simp_all [Except.map]
  all_goals grind

theorem recordResponse_error (h : recordResponse a = .error e) :
    ∃ raised, e = .response raised := by
  unfold recordResponse at h
  split_ifs at h
  split at h <;> cases h
  exact ⟨_, rfl⟩

theorem storeRoomMessage_cases (a : Attempt) :
    storeRoomMessage a = .ok .queued ∨ ∃ e, storeRoomMessage a = .error e ∧ e.AfterChecks := by
  unfold storeRoomMessage
  cases hreply : checkReplyTarget a (some a.envelope.recipient) with
  | error e =>
    right
    refine ⟨e, rfl, ?_⟩
    rcases checkReplyTarget_error hreply with rfl | rfl <;> trivial
  | ok _ =>
    cases hresponse : recordResponse a with
    | error e =>
      right
      refine ⟨e, rfl, ?_⟩
      obtain ⟨raised, rfl⟩ := recordResponse_error hresponse
      trivial
    | ok _ => exact Or.inl rfl

theorem sendDirectMessage_error (h : sendDirectMessage a = .error e) :
    ¬ e.BeforePairLimit := by
  unfold sendDirectMessage at h
  split at h
  · cases h
    exact id
  · split at h
    · cases h
      exact id
    · split at h
      · rename_i hreply
        cases h
        rcases checkReplyTarget_error hreply with rfl | rfl <;> exact id
      · split at h
        · rename_i hresponse
          cases h
          obtain ⟨detail, rfl⟩ := recordResponse_error hresponse
          exact id
        · split at h <;> cases h

/-- A direct message that is stored goes to an agent, and no agent has the empty id. -/
theorem sendDirectMessage_ok {delivery : Delivery} (h : sendDirectMessage a = .ok delivery) :
    a.envelope.recipient ≠ "" := by
  intro hempty
  have hnone : ¬ a.database.agents.any (·.agentId = a.envelope.recipient) := by
    simp [hempty, Agent.nonempty]
  rw [sendDirectMessage, if_pos hnone] at h
  cases h

/-- The two limits check their windows one after the other; a time is noted where its check passes. -/
theorem checkRateLimit_cases (env : Env σ₁ σ₂) (agentId : AgentId) (targetId : String) (now : Time)
    (s : AntiSpam σ₁ σ₂) :
    let window := Window.live minute now (s.rateWindows agentId)
    let pairWindow := Window.live minute now (s.pairRateWindows (agentId, targetId))
    let result := checkRateLimit env agentId targetId now s
    (RATE_LIMIT_PER_MINUTE ≤ window.length ∧
        result = (.error (.rateLimitExceeded window.length (windowRetryAfter now window)),
          { s with rateWindows := Function.update s.rateWindows agentId window })) ∨
      (window.length < RATE_LIMIT_PER_MINUTE ∧ targetId ≠ "" ∧ env.PAIR_RATE_LIMIT_PER_MINUTE ≤ pairWindow.length ∧
        result = (.error (.conversationRateLimitExceeded env.PAIR_RATE_LIMIT_PER_MINUTE pairWindow.length
            (windowRetryAfter now pairWindow)),
          { s with
            rateWindows := Function.update s.rateWindows agentId (window ++ [now])
            pairRateWindows := Function.update s.pairRateWindows (agentId, targetId) pairWindow })) ∨
      (window.length < RATE_LIMIT_PER_MINUTE ∧ targetId = "" ∧
        result = (.ok (), { s with rateWindows := Function.update s.rateWindows agentId (window ++ [now]) })) ∨
      (window.length < RATE_LIMIT_PER_MINUTE ∧ targetId ≠ "" ∧ pairWindow.length < env.PAIR_RATE_LIMIT_PER_MINUTE ∧
        result = (.ok (),
          { s with
            rateWindows := Function.update s.rateWindows agentId (window ++ [now])
            pairRateWindows := Function.update s.pairRateWindows (agentId, targetId) (pairWindow ++ [now]) })) := by
  intro window pairWindow result
  by_cases hlimit : RATE_LIMIT_PER_MINUTE ≤ window.length
  · exact Or.inl ⟨hlimit, by simp [result, checkRateLimit, window, hlimit]⟩
  · have hroom : window.length < RATE_LIMIT_PER_MINUTE := not_le.mp hlimit
    by_cases htarget : targetId = ""
    · exact Or.inr (Or.inr (Or.inl ⟨hroom, htarget, by simp [result, checkRateLimit, window, hlimit, htarget]⟩))
    · by_cases hpair : env.PAIR_RATE_LIMIT_PER_MINUTE ≤ pairWindow.length
      · exact Or.inr (Or.inl ⟨hroom, htarget, hpair,
          by simp [result, checkRateLimit, window, pairWindow, hlimit, htarget, hpair]⟩)
      · exact Or.inr (Or.inr (Or.inr ⟨hroom, htarget, not_le.mp hpair,
          by simp [result, checkRateLimit, window, pairWindow, hlimit, htarget, hpair]⟩))

/-- The same windows, and caches that answer alike. -/
structure AntiSpam.Same (env : Env σ₁ σ₂) (s t : AntiSpam σ₁ σ₂) (now : Time) : Prop where
  rateWindows : t.rateWindows = s.rateWindows
  pairRateWindows : t.pairRateWindows = s.pairRateWindows
  slowModeLastSend : env.slowModeLastSend.Same s.slowModeLastSend t.slowModeLastSend now
  lastMsgHash : env.lastMsgHash.Same s.lastMsgHash t.lastMsgHash now

theorem AntiSpam.Same.refl (s : AntiSpam σ₁ σ₂) (now : Time) : AntiSpam.Same env s s now :=
  ⟨rfl, rfl, Cache.Same.refl _ _, Cache.Same.refl _ _⟩

theorem AntiSpam.Same.later {s t : AntiSpam σ₁ σ₂} {now next : Time} (h : AntiSpam.Same env s t now)
    (hle : now ≤ next) : AntiSpam.Same env s t next :=
  ⟨h.rateWindows, h.pairRateWindows, h.slowModeLastSend.later hle, h.lastMsgHash.later hle⟩

theorem checkSlowMode_same (henv : env.Lawful) (room : Room) (member : RoomMember) (now : Time) (s : AntiSpam σ₁ σ₂) :
    AntiSpam.Same env s (checkSlowMode env room member now s).2 now ∧
      (checkSlowMode env room member now s).2.lastMsgHash = s.lastMsgHash := by
  have hget := henv.slowModeLastSend.same_get s.slowModeLastSend (room.roomId, member.agentId) now
  unfold checkSlowMode
  dsimp only
  split_ifs
  · exact ⟨AntiSpam.Same.refl s now, rfl⟩
  · split
    · exact ⟨⟨rfl, rfl, hget, Cache.Same.refl _ _⟩, rfl⟩
    · split_ifs <;> exact ⟨⟨rfl, rfl, hget, Cache.Same.refl _ _⟩, rfl⟩

theorem checkSlowMode_error {room : Room} {member : RoomMember} {now : Time} {s t : AntiSpam σ₁ σ₂}
    (h : checkSlowMode env room member now s = (.error e, t)) : ∃ limit remaining, e = .slowModeWait limit remaining := by
  unfold checkSlowMode at h
  dsimp only at h
  split_ifs at h
  · cases h
  · split at h
    · cases h
    · split_ifs at h <;> cases h
      exact ⟨_, _, rfl⟩

/-- What the content check leaves when it passes: the hash of the payload under the room and the sender. -/
def Hashed (env : Env σ₁ σ₂) (a : Attempt) (before after : σ₂) : Prop :=
  ∃ cache, env.lastMsgHash.Same before cache a.clock.content ∧
    after = env.lastMsgHash.set (a.envelope.recipient, a.envelope.sender) (env.contentHash a.envelope.payload)
      a.clock.content cache

theorem checkDuplicateContent_cases (henv : env.Lawful) (a : Attempt) (s : AntiSpam σ₁ σ₂) :
    let result := checkDuplicateContent env a.envelope.recipient a.envelope.sender a.envelope.payload a.clock.content s
    (result.1 = .error .duplicateContent ∧ AntiSpam.Same env s result.2 a.clock.content) ∨
      (∃ hash, result = (.ok (), { s with lastMsgHash := hash }) ∧ Hashed env a s.lastMsgHash hash) := by
  intro result
  have hget := henv.lastMsgHash.same_get s.lastMsgHash (a.envelope.recipient, a.envelope.sender) a.clock.content
  by_cases hdup : (env.lastMsgHash.get (a.envelope.recipient, a.envelope.sender) a.clock.content s.lastMsgHash).1 =
      some (env.contentHash a.envelope.payload)
  · left
    simp only [result, checkDuplicateContent, if_pos hdup]
    exact ⟨trivial, rfl, rfl, Cache.Same.refl _ _, hget⟩
  · right
    simp only [result, checkDuplicateContent, if_neg hdup]
    exact ⟨_, rfl, _, hget, rfl⟩

/-- What a room message leaves once it has passed its checks on the anti-spam state. -/
structure Recorded (env : Env σ₁ σ₂) (a : Attempt) (s t : AntiSpam σ₁ σ₂) : Prop where
  rateWindows : t.rateWindows = s.rateWindows
  pairRateWindows : t.pairRateWindows = s.pairRateWindows
  slowModeLastSend : ∃ cache, env.slowModeLastSend.Same s.slowModeLastSend cache a.clock.slowMode ∧
    t.slowModeLastSend = env.slowModeLastSend.set (a.envelope.recipient, a.envelope.sender) a.clock.recorded
      a.clock.recorded cache
  lastMsgHash : if a.ContentChecked then Hashed env a s.lastMsgHash t.lastMsgHash
    else t.lastMsgHash = s.lastMsgHash

/-- A room message is rejected with the caches as they were, or recorded and then stored. -/
theorem sendRoomMessage_cases (henv : env.Lawful) (a : Attempt) (s : AntiSpam σ₁ σ₂) :
    (∃ e t, sendRoomMessage env a s = (.error e, t) ∧ ¬ e.BeforePairLimit ∧ ¬ e.AfterChecks ∧
        AntiSpam.Same env s t a.clock.recorded) ∨
      ∃ t, sendRoomMessage env a s = (storeRoomMessage a, t) ∧ Recorded env a s t := by
  obtain ⟨-, hslowContent, hcontentRecorded⟩ := a.clock.ordered
  unfold sendRoomMessage
  split
  · exact Or.inl ⟨_, _, rfl, id, id, AntiSpam.Same.refl s _⟩
  · rename_i room _
    split
    · exact Or.inl ⟨_, _, rfl, id, id, AntiSpam.Same.refl s _⟩
    · rename_i member _
      split
      · exact Or.inl ⟨_, _, rfl, id, id, AntiSpam.Same.refl s _⟩
      · obtain ⟨hslow, hhash⟩ := checkSlowMode_same henv room member a.clock.slowMode s
        cases hcheck : checkSlowMode env room member a.clock.slowMode s with
        | mk outcome m =>
          rw [hcheck] at hslow hhash
          cases outcome with
          | error e =>
            obtain ⟨limit, remaining, rfl⟩ := checkSlowMode_error hcheck
            exact Or.inl ⟨_, m, rfl, id, id, hslow.later (hslowContent.trans hcontentRecorded)⟩
          | ok _ =>
            dsimp only
            by_cases hchecked : a.ContentChecked
            · rw [if_pos hchecked]
              rcases checkDuplicateContent_cases henv a m with ⟨hdup, hsame⟩ | ⟨hash, hpassed, hhashed⟩
              · rw [show checkDuplicateContent env a.envelope.recipient a.envelope.sender a.envelope.payload
                    a.clock.content m = (.error .duplicateContent, _) from Prod.ext hdup rfl]
                refine Or.inl ⟨_, _, rfl, id, id, ?_, ?_, ?_, ?_⟩
                · exact hsame.rateWindows.trans hslow.rateWindows
                · exact hsame.pairRateWindows.trans hslow.pairRateWindows
                · intro k t ht
                  rw [hsame.slowModeLastSend k t (hcontentRecorded.trans ht)]
                  exact hslow.slowModeLastSend k t ((hslowContent.trans hcontentRecorded).trans ht)
                · intro k t ht
                  rw [hsame.lastMsgHash k t (hcontentRecorded.trans ht), hhash]
              · rw [hpassed]
                refine Or.inr ⟨_, rfl, hslow.rateWindows, hslow.pairRateWindows,
                  ⟨m.slowModeLastSend, hslow.slowModeLastSend, rfl⟩, ?_⟩
                rw [if_pos hchecked, ← hhash]
                exact hhashed
            · rw [if_neg hchecked]
              refine Or.inr ⟨_, rfl, hslow.rateWindows, hslow.pairRateWindows,
                ⟨m.slowModeLastSend, hslow.slowModeLastSend, rfl⟩, ?_⟩
              rw [if_neg hchecked]
              exact hhash

/-- The attempt is a room message that passed its checks on the anti-spam state. -/
def Attempt.RecordedBy (a : Attempt) (outcome : Except SendError Delivery) : Prop :=
  a.envelope.recipient.startsWith "rm_" ∧
    match outcome with
    | .ok .queued => True
    | .ok (.existing _) => False
    | .error e => e.AfterChecks

instance (a : Attempt) (outcome : Except SendError Delivery) : Decidable (a.RecordedBy outcome) :=
  match outcome with
  | .ok .queued => inferInstanceAs (Decidable (_ ∧ True))
  | .ok (.existing _) => inferInstanceAs (Decidable (_ ∧ False))
  | .error e => inferInstanceAs (Decidable (_ ∧ e.AfterChecks))

/-- What comes after the rate limits records a room message, or leaves the state as it was. -/
theorem deliver_cases (henv : env.Lawful) (a : Attempt) (s : AntiSpam σ₁ σ₂) :
    (a.RecordedBy (deliver env a s).1 ∧ Recorded env a s (deliver env a s).2) ∨
      (¬ a.RecordedBy (deliver env a s).1 ∧ AntiSpam.Same env s (deliver env a s).2 a.clock.recorded) := by
  have hrefl : AntiSpam.Same env s s a.clock.recorded := AntiSpam.Same.refl s _
  unfold deliver
  split
  · rename_i hverify
    exact Or.inr ⟨fun h => (verifyEnvelope_error hverify).2 h.2, hrefl⟩
  · split
    · rename_i hretried
      rw [retried_error hretried]
      exact Or.inr ⟨fun h => h.2, hrefl⟩
    · exact Or.inr ⟨fun h => h.2, hrefl⟩
    · split
      · rename_i hroom
        rcases sendRoomMessage_cases henv a s with ⟨e, t, hsend, -, hbefore, hsame⟩ | ⟨t, hsend, hrecorded⟩
        · rw [hsend]
          exact Or.inr ⟨fun h => hbefore h.2, hsame⟩
        · rw [hsend]
          refine Or.inl ⟨⟨hroom, ?_⟩, hrecorded⟩
          rcases storeRoomMessage_cases a with hstored | ⟨e, hfailed, hafter⟩
          · rw [hstored]
            trivial
          · rw [hfailed]
            exact hafter
      · rename_i hdirect
        exact Or.inr ⟨fun h => hdirect h.1, hrefl⟩

variable {s : AntiSpam σ₁ σ₂}

theorem deliver_error (henv : env.Lawful)
    (h : (deliver env a s).1 = .error e) : ¬ e.BeforePairLimit := by
  unfold deliver at h
  split at h
  · rename_i hverify
    cases h
    exact (verifyEnvelope_error hverify).1
  · split at h
    · rename_i hretried
      cases h
      rw [retried_error hretried]
      exact id
    · cases h
    · split at h
      · rcases sendRoomMessage_cases henv a s with ⟨raised, t, hsend, hbefore, -, -⟩ | ⟨t, hsend, -⟩
        · rw [hsend] at h
          cases h
          exact hbefore
        · rw [hsend] at h
          rcases storeRoomMessage_cases a with hstored | ⟨raised, hfailed, hafter⟩
          · rw [hstored] at h
            cases h
          · rw [hfailed] at h
            cases h
            cases e <;> first | exact id | exact hafter.elim
      · exact sendDirectMessage_error h

theorem deliver_queued (h : (deliver env a s).1 = .ok .queued) :
    a.envelope.recipient ≠ "" := by
  unfold deliver at h
  split at h
  · cases h
  · split at h
    · cases h
    · cases h
    · split at h
      · rename_i hroom
        rintro hempty
        rw [hempty] at hroom
        exact absurd hroom (by decide)
      · exact sendDirectMessage_ok h

def AntiSpam.window (s : AntiSpam σ₁ σ₂) (a : Attempt) : List Time :=
  Window.live minute a.clock.limits (s.rateWindows a.currentAgent)

def AntiSpam.pairWindow (s : AntiSpam σ₁ σ₂) (a : Attempt) : List Time :=
  Window.live minute a.clock.limits (s.pairRateWindows (a.currentAgent, a.envelope.recipient))

def AntiSpam.trimmed (s : AntiSpam σ₁ σ₂) (a : Attempt) : AntiSpam σ₁ σ₂ :=
  { s with rateWindows := Function.update s.rateWindows a.currentAgent (s.window a) }

/-- The state once the agent's limit has passed the attempt and the pair's has not. -/
def AntiSpam.turnedAway (s : AntiSpam σ₁ σ₂) (a : Attempt) : AntiSpam σ₁ σ₂ :=
  { s with
    rateWindows := Function.update s.rateWindows a.currentAgent (s.window a ++ [a.clock.limits])
    pairRateWindows :=
      Function.update s.pairRateWindows (a.currentAgent, a.envelope.recipient) (s.pairWindow a) }

def AntiSpam.admitted (s : AntiSpam σ₁ σ₂) (a : Attempt) : AntiSpam σ₁ σ₂ :=
  { s with
    rateWindows := Function.update s.rateWindows a.currentAgent (s.window a ++ [a.clock.limits])
    pairRateWindows :=
      if a.envelope.recipient = "" then s.pairRateWindows
      else Function.update s.pairRateWindows (a.currentAgent, a.envelope.recipient)
        (s.pairWindow a ++ [a.clock.limits]) }

/-- An attempt fails before the limits, at the first, at the second, or goes on from the state that both leave. -/
theorem sendMessage_cases (env : Env σ₁ σ₂) (a : Attempt) (s : AntiSpam σ₁ σ₂) :
    (∃ e, sendMessage env a s = (.error e, s) ∧ e.BeforeAgentLimit) ∨
      (∃ e, sendMessage env a s = (.error e, s.trimmed a) ∧ e.BeforeAgentLimit) ∨
      ((s.window a).length < RATE_LIMIT_PER_MINUTE ∧
        ∃ e, sendMessage env a s = (.error e, s.turnedAway a) ∧ ¬ e.BeforeAgentLimit ∧ e.BeforePairLimit) ∨
      ((s.window a).length < RATE_LIMIT_PER_MINUTE ∧
        (a.envelope.recipient ≠ "" → (s.pairWindow a).length < env.PAIR_RATE_LIMIT_PER_MINUTE) ∧
        sendMessage env a s = deliver env a (s.admitted a)) := by
  unfold sendMessage
  cases hcheck : checkEnvelope a with
  | error e => exact Or.inl ⟨e, rfl, checkEnvelope_error hcheck⟩
  | ok _ =>
    right
    rcases checkRateLimit_cases env a.currentAgent a.envelope.recipient a.clock.limits s with
      ⟨-, hresult⟩ | ⟨hroom, -, -, hresult⟩ | ⟨hroom, hempty, hresult⟩ | ⟨hroom, htarget, hpair, hresult⟩
    · rw [hresult]
      exact Or.inl ⟨_, rfl, trivial⟩
    · rw [hresult]
      exact Or.inr (Or.inl ⟨hroom, _, rfl, id, trivial⟩)
    · rw [hresult]
      refine Or.inr (Or.inr ⟨hroom, fun h => absurd hempty h, ?_⟩)
      simp only [AntiSpam.admitted, AntiSpam.window, if_pos hempty]
    · rw [hresult]
      refine Or.inr (Or.inr ⟨hroom, fun _ => hpair, ?_⟩)
      simp only [AntiSpam.admitted, AntiSpam.window, AntiSpam.pairWindow, if_neg htarget]

def AntiSpam.withWindows (s : AntiSpam σ₁ σ₂) (windows : AgentId → List Time) : AntiSpam σ₁ σ₂ :=
  { s with rateWindows := windows }

theorem checkSlowMode_withWindows (room : Room) (member : RoomMember) (now : Time) (s : AntiSpam σ₁ σ₂)
    (windows : AgentId → List Time) :
    checkSlowMode env room member now (s.withWindows windows) =
      ((checkSlowMode env room member now s).1, (checkSlowMode env room member now s).2.withWindows windows) := by
  unfold checkSlowMode AntiSpam.withWindows
  dsimp only
  split_ifs
  · rfl
  · cases (env.slowModeLastSend.get (room.roomId, member.agentId) now s.slowModeLastSend).1 with
    | none => rfl
    | some last =>
      dsimp only
      split_ifs <;> rfl

theorem checkDuplicateContent_withWindows (roomId : RoomId) (senderId : AgentId) (payload : Payload) (now : Time)
    (s : AntiSpam σ₁ σ₂) (windows : AgentId → List Time) :
    checkDuplicateContent env roomId senderId payload now (s.withWindows windows) =
      ((checkDuplicateContent env roomId senderId payload now s).1,
        (checkDuplicateContent env roomId senderId payload now s).2.withWindows windows) := by
  unfold checkDuplicateContent AntiSpam.withWindows
  dsimp only
  split_ifs <;> rfl

theorem sendRoomMessage_withWindows (a : Attempt) (s : AntiSpam σ₁ σ₂) (windows : AgentId → List Time) :
    sendRoomMessage env a (s.withWindows windows) =
      ((sendRoomMessage env a s).1, (sendRoomMessage env a s).2.withWindows windows) := by
  unfold sendRoomMessage
  split
  · rfl
  · rename_i room _
    split
    · rfl
    · rename_i member _
      split
      · rfl
      · rw [checkSlowMode_withWindows]
        rcases checkSlowMode env room member a.clock.slowMode s with ⟨_ | _, m⟩
        · rfl
        · dsimp only
          by_cases hchecked : a.ContentChecked
          · rw [if_pos hchecked, if_pos hchecked, checkDuplicateContent_withWindows]
            rcases checkDuplicateContent env a.envelope.recipient a.envelope.sender a.envelope.payload
              a.clock.content m with ⟨_ | _, n⟩ <;> rfl
          · rw [if_neg hchecked, if_neg hchecked]
            rfl

theorem deliver_withWindows (a : Attempt) (s : AntiSpam σ₁ σ₂) (windows : AgentId → List Time) :
    deliver env a (s.withWindows windows) = ((deliver env a s).1, (deliver env a s).2.withWindows windows) := by
  unfold deliver
  split
  · rfl
  · split
    · rfl
    · rfl
    · split
      · exact sendRoomMessage_withWindows a s windows
      · rfl

theorem rateWindows_deliver (a : Attempt) (s : AntiSpam σ₁ σ₂) : (deliver env a s).2.rateWindows = s.rateWindows :=
  congrArg (·.2.rateWindows) (deliver_withWindows a s s.rateWindows)

theorem checkRateLimit_withWindows {agentId : AgentId} {targetId : String} {now : Time}
    {windows : AgentId → List Time}
    (h : Window.live minute now (windows agentId) = Window.live minute now (s.rateWindows agentId)) :
    checkRateLimit env agentId targetId now (s.withWindows windows) =
      ((checkRateLimit env agentId targetId now s).1,
        (checkRateLimit env agentId targetId now s).2.withWindows
          (Function.update windows agentId ((checkRateLimit env agentId targetId now s).2.rateWindows agentId))) := by
  unfold checkRateLimit AntiSpam.withWindows
  dsimp only
  rw [h]
  split_ifs <;> simp

end BotCord.Sends
