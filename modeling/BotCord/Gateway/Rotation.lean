import BotCord.Gateway.Prompt

/-!
# How long a session lives

The turns of one session key one after another. Each reads the entry of the key, calls the runtime and writes the entry back, with the number of the turns the session has served. A turn that is superseded, fails, runs out of time or whose runtime names no session leaves the entry, and the number in it, as it was.
-/

namespace BotCord.Gateway

/-- A turn and how it goes on: `second`: what a second call returns, if there is one; none if it throws. `reply`: what is left of the reply when the session is written; none if the turn ends before that, superseded, out of time, over its budget or with an invalid decision. -/
structure TurnCourse extends PromptTurn where
  second : Option RuntimeRunResult := none
  reply : Option String := none

namespace TurnCourse

variable (policy : SessionPolicy) (c : TurnCourse) (entries : SessionEntries) (sessionId : String)

def reading : PromptTurn := { c.toPromptTurn with entry := entries.get c.turn.key }

def calls : List RuntimeCall := (c.reading entries).runtimeCalls policy

/-- The calls with what they return. -/
def answers : List (RuntimeCall × Option RuntimeRunResult) := (c.calls policy entries).zip [c.first, c.second]

/-- The turn at its first call. -/
def prepared : SessionTurn := ((c.reading entries).prepare policy).2

def retriedFresh : Bool :=
  c.ready && (!c.stopped && c.first.any ((c.prepared policy entries).shouldRetryFresh policy))

/-- The store at the end of the calls: the entry of a session that is rotated or was not to be recovered is gone. -/
def kept : SessionEntries :=
  if c.ready && (c.reading entries).session.rotates policy || c.retriedFresh policy entries then
    entries.delete c.turn.key
  else entries

/-- The last result, with the session its call was to go on with; none if the turn is stopped or a call throws. -/
def last : Option (SessionTurn × RuntimeRunResult) :=
  let t := c.prepared policy entries
  if c.ready && !c.stopped then
    c.first.bind fun result =>
      if t.shouldRetryFresh policy result then c.second.map ({ t with activeSessionId := none }, ·)
      else if c.retrySafe && t.shouldRetryTransient policy result then
        if c.stoppedAfter then none else c.second.map (t, ·)
      else some (t, result)
  else none

/-- The store after the turn. -/
def after : SessionEntries :=
  match c.last policy entries, c.reply with
  | some (t, result), some replyText => t.persist policy result replyText (c.kept policy entries)
  | _, _ => c.kept policy entries

def Resumes : Prop := ∃ call ∈ c.calls policy entries, call.sessionId = some sessionId
deriving Decidable

/-- A call that was not to go on with the session returns it. -/
def Creates : Prop :=
  ∃ answer ∈ c.answers policy entries, answer.1.sessionId ≠ some sessionId ∧
    ∃ result ∈ answer.2, result.newSessionId = sessionId
deriving Decidable

/-- The turn drops its session for a fresh one, or gets to the write with a session or an error to write. -/
def Settles : Prop :=
  c.retriedFresh policy entries ∨ c.reply.isSome ∧ ∃ last ∈ c.last policy entries,
    last.2.newSessionId ≠ "" ∧ ¬ SessionTurn.authFailed policy last.2 ∨ SessionTurn.hasError policy last.2
deriving Decidable

end TurnCourse

/-- The store, and how many turns have resumed the session since it was created. -/
structure SessionLife where
  entries : SessionEntries
  resumed : ℕ := 0

/-- The turns of one key, one after another. -/
def sessionLife (policy : SessionPolicy) (key sessionId : String) : System SessionLife TurnCourse where
  step s c :=
    if c.turn.key = key then
      some {
        entries := c.after policy s.entries
        resumed := if c.Resumes policy s.entries sessionId then s.resumed + 1 else s.resumed }
    else none

/-- The session is in no other session's place: only the turn that created it returns it without having resumed it. And a turn that resumes it is counted. -/
structure CountedTurn (policy : SessionPolicy) (sessionId : String) (s : SessionLife) (c : TurnCourse) : Prop where
  created : ¬ c.Creates policy s.entries sessionId
  settles : c.Resumes policy s.entries sessionId → c.Settles policy s.entries

instance (policy : SessionPolicy) (sessionId : String) (s : SessionLife) (c : TurnCourse) :
    Decidable (CountedTurn policy sessionId s c) :=
  decidable_of_iff (¬ c.Creates policy s.entries sessionId ∧
      (c.Resumes policy s.entries sessionId → c.Settles policy s.entries))
    ⟨fun h => ⟨h.1, h.2⟩, fun h => ⟨h.created, h.settles⟩⟩

namespace SessionEntries

theorem get_delete_self (entries : SessionEntries) (key : String) : (entries.delete key).get key = none := by
  rw [get, delete, List.find?_filter, List.find?_eq_none]
  intro entry _
  simp

theorem get_put_self (entries : SessionEntries) (entry : GatewaySessionEntry) :
    (entries.put entry).get entry.key = some entry := by
  rw [get, put, List.find?_cons_of_pos (by simp)]

end SessionEntries

namespace SessionTurn

variable {policy : SessionPolicy} {t : SessionTurn} {result : RuntimeRunResult} {replyText : String}
  {entries : SessionEntries} {entry : GatewaySessionEntry}

theorem one_le_nextTurnCount (t : SessionTurn) : 1 ≤ t.nextTurnCount := by
  rw [nextTurnCount]
  split <;> omega

theorem nextTurnCount_resumed (hne : entry.runtimeSessionId ≠ "") (hentry : t.entry = some entry)
    (hactive : t.activeSessionId = some entry.runtimeSessionId) : t.nextTurnCount = entry.turnCount.getD 0 + 1 := by
  rw [nextTurnCount, hentry, hactive]
  simp [hne]

theorem turnCount_lt (hlimit : 0 < policy.maxResumeTurns) (h : rotationDecision policy (some entry) = false) {n : ℕ}
    (hcount : entry.turnCount = some n) : n < policy.maxResumeTurns := by
  rw [rotationDecision, Option.any_some, Bool.or_eq_false_iff, hcount] at h
  have hturns := h.2
  simp [reached] at hturns
  omega

/-- What the key has after the write: the new entry, or the old one if there is neither a session nor an error to write. -/
theorem get_persist (h : (t.persist policy result replyText entries).get t.turn.key = some entry) :
    entry = t.newEntry result ∨ entries.get t.turn.key = some entry ∧
      ¬ (result.newSessionId ≠ "" ∧ ¬ authFailed policy result) ∧
        ¬ (t.activeSessionId.any (· ≠ "") ∧ hasError policy result) := by
  rw [persist] at h
  split at h
  · rw [SessionEntries.get_delete_self] at h
    exact absurd h (Option.some_ne_none entry).symm
  · split at h
    · have hput := SessionEntries.get_put_self entries (t.newEntry result)
      exact .inl (Option.some.inj (h.symm.trans hput))
    · split at h
      · rw [SessionEntries.get_delete_self] at h
        exact absurd h (Option.some_ne_none entry).symm
      · rename_i hwrite hdrop
        exact .inr ⟨h, by simpa using hwrite, by simpa using hdrop⟩

end SessionTurn

namespace TurnCourse

variable {policy : SessionPolicy} {c : TurnCourse} {entries : SessionEntries} {sessionId : String}

theorem ready_of_mem_calls {call : RuntimeCall} (h : call ∈ c.calls policy entries) : c.ready = true :=
  PromptTurn.ready_of_mem_runtimeCalls (x := c.reading entries) h

/-- Unless it retries in a fresh session, a turn calls its runtime with one session. -/
theorem sessionId_of_mem_calls {call : RuntimeCall} (h : call ∈ c.calls policy entries) :
    call.sessionId = (c.prepared policy entries).activeSessionId ∨
      c.retriedFresh policy entries = true ∧ call.sessionId = none := by
  rcases PromptTurn.eq_of_mem_runtimeCalls h with rfl | ⟨hfresh, error, rfl⟩
  · exact .inl rfl
  · exact .inr ⟨Bool.and_eq_true_iff.mpr ⟨ready_of_mem_calls h, hfresh⟩, rfl⟩

theorem resumes_of_active (hready : c.ready = true)
    (hactive : (c.prepared policy entries).activeSessionId = some sessionId) : c.Resumes policy entries sessionId :=
  ⟨_, PromptTurn.first_mem_runtimeCalls (x := c.reading entries) hready, hactive⟩

theorem active_of_resumes (h : c.Resumes policy entries sessionId) :
    c.ready = true ∧ (c.prepared policy entries).activeSessionId = some sessionId := by
  obtain ⟨call, hcall, hsession⟩ := h
  refine ⟨ready_of_mem_calls hcall, ?_⟩
  rcases sessionId_of_mem_calls hcall with hactive | ⟨-, hnone⟩
  · exact hactive.symm.trans hsession
  · exact absurd (hnone.symm.trans hsession) (Option.some_ne_none sessionId).symm

theorem entry_of_resumes (hne : sessionId ≠ "") (h : c.Resumes policy entries sessionId) :
    c.prepared policy entries = (c.reading entries).session ∧ ∃ entry, entries.get c.turn.key = some entry ∧
      entry.runtimeSessionId = sessionId ∧ SessionTurn.rotationDecision policy (some entry) = false := by
  obtain ⟨-, hactive⟩ := active_of_resumes h
  cases hrotation : (c.reading entries).rotation policy with
  | some reason =>
    rw [prepared, PromptTurn.prepare_rotated hrotation] at hactive
    exact absurd hactive (Option.some_ne_none sessionId).symm
  | none =>
    have hprepared : c.prepared policy entries = (c.reading entries).session := by
      rw [prepared, PromptTurn.prepare_resumed hrotation]
    have hrotates := PromptTurn.isSome_rotation policy (c.reading entries)
    rw [hrotation, Option.isSome_none] at hrotates
    rw [hprepared] at hactive
    obtain ⟨entry, hentry, hid⟩ := Option.map_eq_some_iff.mp hactive
    refine ⟨hprepared, entry, hentry, hid, ?_⟩
    have hany : (c.reading entries).session.activeSessionId.any (· ≠ "") = true := by
      rw [hactive]
      simp [hne]
    rw [SessionTurn.rotates, hany, Bool.true_and] at hrotates
    have hsession : (c.reading entries).session.entry = some entry := hentry
    rw [hsession] at hrotates
    exact hrotates.symm

/-- A turn that keeps the entry of its key and calls the runtime resumes its session. -/
theorem resumes_of_kept (hready : c.ready = true) {entry : GatewaySessionEntry}
    (hentry : (c.kept policy entries).get c.turn.key = some entry) (hid : entry.runtimeSessionId = sessionId) :
    c.Resumes policy entries sessionId ∧ c.retriedFresh policy entries = false ∧ entries.get c.turn.key = some entry := by
  rw [kept] at hentry
  split at hentry
  · rw [SessionEntries.get_delete_self] at hentry
    exact absurd hentry (Option.some_ne_none entry).symm
  · rename_i hstays
    rw [hready, Bool.true_and, Bool.or_eq_true, not_or, Bool.not_eq_true, Bool.not_eq_true] at hstays
    obtain ⟨hrotates, hfresh⟩ := hstays
    have hrotation : (c.reading entries).rotation policy = none := by
      rw [← Option.not_isSome_iff_eq_none, PromptTurn.isSome_rotation, hrotates]
      exact Bool.false_ne_true
    have hactive : (c.prepared policy entries).activeSessionId = some sessionId := by
      rw [prepared, PromptTurn.prepare_resumed hrotation, ← hid]
      exact congrArg (Option.map GatewaySessionEntry.runtimeSessionId) hentry
    exact ⟨resumes_of_active hready hactive, hfresh, hentry⟩

theorem turn_prepared : (c.prepared policy entries).turn = c.turn := by
  rw [prepared, PromptTurn.prepare]
  split <;> rfl

/-- The sessions of the calls of a turn that is not stopped during the first, with what the calls return. -/
theorem sessions_answers (hready : c.ready = true) (hstopped : c.stopped = false) {first : RuntimeRunResult}
    (hfirst : c.first = some first) :
    (c.answers policy entries).map (fun answer => (answer.1.sessionId, answer.2)) =
      ((c.prepared policy entries).activeSessionId, some first) ::
        if (c.prepared policy entries).shouldRetryFresh policy first then [(none, c.second)]
        else if c.retrySafe && (c.prepared policy entries).shouldRetryTransient policy first && !c.stoppedAfter then
          [((c.prepared policy entries).activeSessionId, c.second)]
        else [] := by
  have hcalls : (c.reading entries).runtimeCalls policy = _ := (c.reading entries).runtimeCalls_of_first hready hfirst
  rw [show (!(c.reading entries).stopped) = true by rw [reading, hstopped]; rfl, Bool.true_and, Bool.true_and] at hcalls
  rw [answers, calls, hcalls, hfirst]
  by_cases hfresh : (c.prepared policy entries).shouldRetryFresh policy first = true
  · have hcall : ((c.reading entries).prepare policy).2.shouldRetryFresh policy first = true := hfresh
    rw [if_pos hfresh, if_pos hcall]
    rfl
  · have hcall : ¬ ((c.reading entries).prepare policy).2.shouldRetryFresh policy first = true := hfresh
    rw [if_neg hfresh, if_neg hcall]
    by_cases hagain : (c.retrySafe && (c.prepared policy entries).shouldRetryTransient policy first && !c.stoppedAfter) = true
    · have hcall : ((c.reading entries).retrySafe && ((c.reading entries).prepare policy).2.shouldRetryTransient policy first &&
          !(c.reading entries).stoppedAfter) = true := hagain
      rw [if_pos hagain, if_pos hcall]
      rfl
    · have hcall : ¬ ((c.reading entries).retrySafe &&
          ((c.reading entries).prepare policy).2.shouldRetryTransient policy first &&
            !(c.reading entries).stoppedAfter) = true := hagain
      rw [if_neg hagain, if_neg hcall]
      rfl

/-- The result that is written at the end is that of a call with the session the turn has by then. -/
theorem answer_of_last {t : SessionTurn} {result : RuntimeRunResult} (h : c.last policy entries = some (t, result)) :
    (c.retriedFresh policy entries = true ∧ t.activeSessionId = none ∨
        c.retriedFresh policy entries = false ∧ t = c.prepared policy entries) ∧
      t.turn.key = c.turn.key ∧
      ∃ answer ∈ c.answers policy entries, answer.1.sessionId = t.activeSessionId ∧ answer.2 = some result := by
  have hkey : (c.prepared policy entries).turn.key = c.turn.key := congrArg Turn.key turn_prepared
  rw [last] at h
  split at h
  · rename_i hgoes
    obtain ⟨hready, hstopped⟩ := Bool.and_eq_true_iff.mp hgoes
    obtain ⟨first, hfirst, h⟩ := Option.bind_eq_some_iff.mp h
    have hsessions : (c.answers policy entries).map (fun answer => (answer.1.sessionId, answer.2)) = _ :=
      sessions_answers hready (by simpa using hstopped) hfirst
    have hfresh : c.retriedFresh policy entries = (c.prepared policy entries).shouldRetryFresh policy first := by
      rw [retriedFresh, hready, hstopped, hfirst, Option.any_some, Bool.true_and, Bool.true_and]
    have hanswer : ∀ session value, (session, some value) ∈ (c.answers policy entries).map (fun answer => (answer.1.sessionId, answer.2)) →
        ∃ answer ∈ c.answers policy entries, answer.1.sessionId = session ∧ answer.2 = some value := by
      intro session value hmem
      obtain ⟨answer, hanswer, heq⟩ := List.mem_map.mp hmem
      exact ⟨answer, hanswer, congrArg Prod.fst heq, congrArg Prod.snd heq⟩
    split at h
    · rename_i hretry
      obtain ⟨second, hsecond, heq⟩ := Option.map_eq_some_iff.mp h
      obtain ⟨rfl, rfl⟩ := Prod.mk.inj heq
      refine ⟨.inl ⟨hfresh.trans hretry, rfl⟩, hkey, hanswer _ _ ?_⟩
      rw [hsessions, if_pos hretry, hsecond]
      exact List.mem_cons_of_mem _ List.mem_cons_self
    · rename_i hkeeps
      have hnot : c.retriedFresh policy entries = false := hfresh.trans (Bool.eq_false_of_not_eq_true hkeeps)
      split at h
      · rename_i hretry
        split at h
        · exact absurd h (Option.some_ne_none _).symm
        · rename_i hgoesOn
          obtain ⟨second, hsecond, heq⟩ := Option.map_eq_some_iff.mp h
          obtain ⟨rfl, rfl⟩ := Prod.mk.inj heq
          refine ⟨.inr ⟨hnot, rfl⟩, hkey, hanswer _ _ ?_⟩
          rw [hsessions, if_neg hkeeps, hretry, Bool.eq_false_of_not_eq_true hgoesOn, hsecond]
          exact List.mem_cons_of_mem _ List.mem_cons_self
      · obtain ⟨rfl, rfl⟩ := Prod.mk.inj (Option.some.inj h)
        refine ⟨.inr ⟨hnot, rfl⟩, hkey, hanswer _ _ ?_⟩
        rw [hsessions]
        exact List.mem_cons_self
  · exact absurd h (Option.some_ne_none _).symm

theorem get_of_get_kept {entry : GatewaySessionEntry} (h : (c.kept policy entries).get c.turn.key = some entry) :
    entries.get c.turn.key = some entry := by
  rw [kept] at h
  split at h
  · rw [SessionEntries.get_delete_self] at h
    exact absurd h (Option.some_ne_none entry).symm
  · exact h

/-- What the key has after the turn: what it has had before, if nothing is written, or the entry of a result. -/
theorem get_after {entry : GatewaySessionEntry} (h : (c.after policy entries).get c.turn.key = some entry) :
    (c.kept policy entries).get c.turn.key = some entry ∧
        (c.reply.isSome → ∀ last ∈ c.last policy entries,
          ¬ (last.2.newSessionId ≠ "" ∧ ¬ SessionTurn.authFailed policy last.2) ∧
            ¬ (last.1.activeSessionId.any (· ≠ "") ∧ SessionTurn.hasError policy last.2)) ∨
      ∃ last ∈ c.last policy entries, entry = last.1.newEntry last.2 := by
  rw [after] at h
  split at h
  · rename_i t result replyText hlast hreply
    rw [← (answer_of_last hlast).2.1] at h
    rcases SessionTurn.get_persist h with hnew | ⟨hkept, hwrite, hdrop⟩
    · exact .inr ⟨(t, result), hlast, hnew⟩
    · rw [(answer_of_last hlast).2.1] at hkept
      refine .inl ⟨hkept, fun _ last hmem => ?_⟩
      obtain rfl := Option.some.inj (hlast.symm.trans hmem)
      exact ⟨hwrite, hdrop⟩
  · rename_i hnone
    refine .inl ⟨h, fun hreply last hmem => ?_⟩
    obtain ⟨replyText, hreply⟩ := Option.isSome_iff_exists.mp hreply
    exact absurd hreply (hnone last.1 last.2 replyText hmem)

/-- An entry with the session that a turn writes without having resumed it is that of a session it has created. -/
theorem creates_of_last {last : SessionTurn × RuntimeRunResult} (hlast : last ∈ c.last policy entries)
    (hid : last.2.newSessionId = sessionId) (hactive : last.1.activeSessionId ≠ some sessionId) :
    c.Creates policy entries sessionId := by
  obtain ⟨-, -, answer, hanswer, hsession, hresult⟩ := answer_of_last hlast
  exact ⟨answer, hanswer, hsession ▸ hactive, last.2, hresult, hid⟩

theorem ready_of_last {last : SessionTurn × RuntimeRunResult} (hlast : last ∈ c.last policy entries) :
    c.ready = true := by
  rw [TurnCourse.last, Option.mem_def] at hlast
  split at hlast
  · rename_i hgoes
    exact (Bool.and_eq_true_iff.mp hgoes).1
  · exact absurd hlast (Option.some_ne_none _).symm

end TurnCourse

/-- The session has been resumed less often than the limit allows, and its entry has counted every time. -/
structure SessionLife.Bounded (policy : SessionPolicy) (key sessionId : String) (s : SessionLife) : Prop where
  resumed : s.resumed ≤ policy.maxResumeTurns - 1
  counted : ∀ entry, s.entries.get key = some entry → entry.runtimeSessionId = sessionId →
    ∃ n, entry.turnCount = some n ∧ s.resumed + 1 ≤ n

section Life

variable {policy : SessionPolicy} {sessionId : String} {c : TurnCourse}

theorem bounded_created {entries : SessionEntries} (hcreates : c.Creates policy entries sessionId) :
    SessionLife.Bounded policy c.turn.key sessionId { entries := c.after policy entries } := by
  refine ⟨Nat.zero_le _, fun entry hentry hid => ?_⟩
  rcases TurnCourse.get_after hentry with ⟨hkept, -⟩ | ⟨last, hlast, rfl⟩
  · obtain ⟨answer, hanswer, hsession, -⟩ := hcreates
    have hcall : answer.1 ∈ c.calls policy entries := (List.of_mem_zip hanswer).1
    have hready := TurnCourse.ready_of_mem_calls hcall
    obtain ⟨hresumes, hfresh, -⟩ := TurnCourse.resumes_of_kept hready hkept hid
    have hactive := (TurnCourse.active_of_resumes hresumes).2
    rcases TurnCourse.sessionId_of_mem_calls hcall with heq | ⟨hretried, -⟩
    · exact absurd (heq.trans hactive) hsession
    · exact absurd (hretried.symm.trans hfresh) Bool.noConfusion
  · exact ⟨_, rfl, SessionTurn.one_le_nextTurnCount last.1⟩

variable {s : SessionLife}

theorem SessionLife.Bounded.resumes (h : s.Bounded policy c.turn.key sessionId) (hne : sessionId ≠ "")
    (hlimit : 0 < policy.maxResumeTurns) (hcounted : CountedTurn policy sessionId s c)
    (hresumes : c.Resumes policy s.entries sessionId) :
    SessionLife.Bounded policy c.turn.key sessionId { entries := c.after policy s.entries, resumed := s.resumed + 1 } := by
  obtain ⟨hprepared, entry, hentry, hid, hrotation⟩ := TurnCourse.entry_of_resumes hne hresumes
  obtain ⟨n, hcount, hle⟩ := h.counted entry hentry hid
  have hlt := SessionTurn.turnCount_lt hlimit hrotation hcount
  refine ⟨by dsimp only; omega, fun next hnext hnextId => ?_⟩
  have hactive := (TurnCourse.active_of_resumes hresumes).2
  rcases TurnCourse.get_after hnext with ⟨hkept, hwritten⟩ | ⟨last, hlast, rfl⟩
  · -- Nothing is written, although the turn settles.
    obtain ⟨-, hfresh, -⟩ := TurnCourse.resumes_of_kept (TurnCourse.active_of_resumes hresumes).1 hkept hnextId
    rcases hcounted.settles hresumes with hretried | ⟨hreply, last, hlast, hwrites⟩
    · exact absurd (hretried.symm.trans hfresh) Bool.noConfusion
    · obtain ⟨hnoSession, hnoError⟩ := hwritten hreply last hlast
      rcases hwrites with hsession | herror
      · exact absurd hsession hnoSession
      · refine absurd ⟨?_, herror⟩ hnoError
        rcases (TurnCourse.answer_of_last hlast).1 with ⟨hretried, -⟩ | ⟨-, hturn⟩
        · exact absurd (hretried.symm.trans hfresh) Bool.noConfusion
        · rw [hturn, hactive]
          simp [hne]
  · rcases (TurnCourse.answer_of_last hlast).1 with ⟨-, hnone⟩ | ⟨-, hturn⟩
    · have hother : last.1.activeSessionId ≠ some sessionId := by
        rw [hnone]
        exact (Option.some_ne_none sessionId).symm
      exact absurd (TurnCourse.creates_of_last hlast hnextId hother) hcounted.created
    · refine ⟨_, rfl, ?_⟩
      have hsession : last.1.entry = some entry := by
        rw [hturn, hprepared]
        exact hentry
      rw [hturn.symm, ← hid] at hactive
      rw [SessionTurn.nextTurnCount_resumed (hid ▸ hne) hsession hactive, hcount]
      dsimp only [Option.getD_some]
      omega

theorem SessionLife.Bounded.other (h : s.Bounded policy c.turn.key sessionId)
    (hcounted : CountedTurn policy sessionId s c) (hresumes : ¬ c.Resumes policy s.entries sessionId) :
    SessionLife.Bounded policy c.turn.key sessionId { entries := c.after policy s.entries, resumed := s.resumed } := by
  refine ⟨h.resumed, fun next hnext hnextId => ?_⟩
  rcases TurnCourse.get_after hnext with ⟨hkept, -⟩ | ⟨last, hlast, rfl⟩
  · exact h.counted next (TurnCourse.get_of_get_kept hkept) hnextId
  · refine absurd (TurnCourse.creates_of_last hlast hnextId fun hactive => ?_) hcounted.created
    rcases (TurnCourse.answer_of_last hlast).1 with ⟨-, hnone⟩ | ⟨-, hturn⟩
    · exact absurd (hnone.symm.trans hactive) (Option.some_ne_none sessionId).symm
    · rw [hturn] at hactive
      exact hresumes (TurnCourse.resumes_of_active (TurnCourse.ready_of_last hlast) hactive)

theorem SessionLife.Bounded.step {key : String} {t : SessionLife} (h : s.Bounded policy key sessionId)
    (hne : sessionId ≠ "") (hlimit : 0 < policy.maxResumeTurns) (hcounted : CountedTurn policy sessionId s c)
    (hstep : (sessionLife policy key sessionId).step s c = some t) : t.Bounded policy key sessionId := by
  obtain ⟨hkey, hnext⟩ := Option.ite_none_right_eq_some.mp hstep
  subst hkey
  rw [← Option.some.inj hnext]
  by_cases hresumes : c.Resumes policy s.entries sessionId
  · rw [if_pos hresumes]
    exact h.resumes hne hlimit hcounted hresumes
  · rw [if_neg hresumes]
    exact h.other hcounted hresumes

end Life

/-- A session is resumed in fewer turns than the limit, if every turn after the one that has created it and that resumes it drops it for a fresh one or gets to the write with a session or an error. -/
theorem resumed_bounded (policy : SessionPolicy) (hlimit : 0 < policy.maxResumeTurns) (sessionId : String)
    (hne : sessionId ≠ "") (entries : SessionEntries) (first : TurnCourse)
    (hcreates : first.Creates policy entries sessionId) (courses : List TurnCourse) (t : SessionLife)
    (hmeets : (sessionLife policy first.turn.key sessionId).Meets (CountedTurn policy sessionId)
      { entries := first.after policy entries } courses)
    (hrun : (sessionLife policy first.turn.key sessionId).run { entries := first.after policy entries } courses = some t) :
    t.resumed ≤ policy.maxResumeTurns - 1 :=
  (System.run_invariant_of_meets _ (fun _ _ _ h hcounted hstep => h.step hne hlimit hcounted hstep)
    (bounded_created hcreates) hmeets hrun).resumed

/-- A turn of the room whose runtime returns the session; `reply`: none if it is superseded. -/
def roomCourse (newSessionId : String) (reply : Option String) : TurnCourse :=
  { thirdTurn with first := some { text := "hi", newSessionId }, reply }

/-- A session of two turns, and the turn that drops it. -/
theorem resumed_bounded_two :
    ∃ t, (sessionLife rotatesAfterTwo thirdTurn.turn.key "s_1").run
        { entries := (roomCourse "s_1" (some "hi")).after rotatesAfterTwo [] }
        [roomCourse "s_1" (some "hi"), roomCourse "s_2" (some "hi")] = some t ∧
      t.resumed ≤ rotatesAfterTwo.maxResumeTurns - 1 := by
  have hcreates : (roomCourse "s_1" (some "hi")).Creates rotatesAfterTwo [] "s_1" := by decide +kernel
  have hmeets : (sessionLife rotatesAfterTwo (roomCourse "s_1" (some "hi")).turn.key "s_1").Meets
      (CountedTurn rotatesAfterTwo "s_1") { entries := (roomCourse "s_1" (some "hi")).after rotatesAfterTwo [] }
      [roomCourse "s_1" (some "hi"), roomCourse "s_2" (some "hi")] := by decide +kernel
  obtain ⟨t, hrun⟩ := Option.isSome_iff_exists.mp (show ((sessionLife rotatesAfterTwo
    (roomCourse "s_1" (some "hi")).turn.key "s_1").run
      { entries := (roomCourse "s_1" (some "hi")).after rotatesAfterTwo [] }
      [roomCourse "s_1" (some "hi"), roomCourse "s_2" (some "hi")]).isSome by decide +kernel)
  exact ⟨t, hrun, resumed_bounded rotatesAfterTwo (by decide) "s_1" (by decide) [] _ hcreates _ t hmeets hrun⟩

/-- A session is resumed in two turns although the limit is two turns in all: both are superseded after their runtime has returned the session it was given. -/
theorem superseded_not_counted :
    (roomCourse "s_1" (some "hi")).Creates rotatesAfterTwo [] "s_1" ∧
      (sessionLife rotatesAfterTwo thirdTurn.turn.key "s_1").Meets
        (fun s c => ¬ c.Creates rotatesAfterTwo s.entries "s_1")
        { entries := (roomCourse "s_1" (some "hi")).after rotatesAfterTwo [] }
        [roomCourse "s_1" none, roomCourse "s_1" none] ∧
      ((sessionLife rotatesAfterTwo thirdTurn.turn.key "s_1").run
        { entries := (roomCourse "s_1" (some "hi")).after rotatesAfterTwo [] }
        [roomCourse "s_1" none, roomCourse "s_1" none]).map (·.resumed) = some 2 ∧
      rotatesAfterTwo.maxResumeTurns - 1 = 1 := by
  decide +kernel

end BotCord.Gateway
