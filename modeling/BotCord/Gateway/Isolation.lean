import BotCord.Gateway.RuntimeSessions

/-!
# Sessions stay in their scope

All uses of a session are by turns of one scope. A stored session has been returned to a turn with the key it is stored under, so a turn that reads it shares that key; it shares the scope as well if no part of the one runs on into the other.
-/

namespace BotCord.Gateway

namespace Sessions

/-- The runtime of a turn with this property has returned the session. -/
def Produced (s : Sessions) (sessionId : String) (p : Turn → Prop) : Prop :=
  ∃ use ∈ s.uses, use.produced = true ∧ use.sessionId = sessionId ∧ p use.turn

structure Isolated (s : Sessions) : Prop where
  shared : ∀ use ∈ s.uses, ∀ other ∈ s.uses, use.sessionId = other.sessionId → use.turn.scope = other.turn.scope
  entries : ∀ entry ∈ s.entries, s.Produced entry.runtimeSessionId fun turn => turn.key = entry.key
  file : ∀ entry ∈ s.file, s.Produced entry.runtimeSessionId fun turn => turn.key = entry.key
  active : ∀ t ∈ s.turns, ∀ sessionId ∈ t.activeSessionId,
    s.Produced sessionId fun turn => turn.scope = t.turn.scope
  returned : ∀ t ∈ s.turns, ∀ retried result, t.stage = .returned retried result → result.newSessionId ≠ "" →
    s.Produced result.newSessionId fun turn => turn = t.turn

variable {policy : SessionPolicy} {s next : Sessions}

variable {sessionId : String}

theorem Produced.mono {p : Turn → Prop} (huses : s.uses ⊆ next.uses) (h : s.Produced sessionId p) :
    next.Produced sessionId p := by
  obtain ⟨use, huse, hrest⟩ := h
  exact ⟨use, huses huse, hrest⟩

theorem shared_append {uses : List SessionUse} {use : SessionUse}
    (h : ∀ u ∈ uses, ∀ v ∈ uses, u.sessionId = v.sessionId → u.turn.scope = v.turn.scope)
    (huse : ∀ u ∈ uses, u.sessionId = use.sessionId → u.turn.scope = use.turn.scope) :
    ∀ u ∈ uses ++ [use], ∀ v ∈ uses ++ [use], u.sessionId = v.sessionId → u.turn.scope = v.turn.scope := by
  intro u hu v hv huv
  rcases List.mem_append.mp hu with hu | hu <;> rcases List.mem_append.mp hv with hv | hv
  · exact h u hu v hv huv
  · rw [List.mem_singleton.mp hv] at huv ⊢
    exact huse u hu huv
  · rw [List.mem_singleton.mp hu] at huv ⊢
    exact (huse v hv huv.symm).symm
  · rw [List.mem_singleton.mp hu, List.mem_singleton.mp hv]

variable {t : SessionTurn}

theorem Isolated.uses_active (h : s.Isolated) (ht : t ∈ s.turns)
    (hactive : t.activeSessionId = some sessionId) :
    ∀ use ∈ s.uses, use.sessionId = sessionId → use.turn.scope = t.turn.scope := by
  obtain ⟨producer, hproducer, -, hid, hscope⟩ := h.active t ht sessionId hactive
  intro use huse hsame
  exact (h.shared use huse producer hproducer (hsame.trans hid.symm)).trans hscope

variable {i : ℕ}

/-- Changing a turn, and perhaps deleting entries, where the turn keeps what it may resume and return. -/
theorem isolated_setTurn (h : s.Isolated) {t changed : SessionTurn} {entries : SessionEntries}
    (hget : s.turns[i]? = some t) (hentries : entries ⊆ s.entries) (hturn : changed.turn = t.turn)
    (hactive : ∀ sessionId ∈ changed.activeSessionId, t.activeSessionId = some sessionId)
    (hstage : ∀ retried result, changed.stage ≠ .returned retried result ∨ changed.stage = t.stage) :
    ({ s with entries }.setTurn i changed).Isolated := by
  have ht : t ∈ s.turns := List.mem_of_getElem? hget
  refine ⟨h.shared, fun entry hentry => h.entries entry (hentries hentry), h.file, fun other hother => ?_,
    fun other hother => ?_⟩
  · rcases List.mem_or_eq_of_mem_set hother with hother | rfl
    · exact h.active other hother
    · intro sessionId hid
      rw [hturn]
      exact h.active t ht sessionId (hactive sessionId hid)
  · rcases List.mem_or_eq_of_mem_set hother with hother | rfl
    · exact h.returned other hother
    · intro retried result hreturned
      rw [hturn]
      rcases hstage retried result with hne | hsame
      · exact absurd hreturned hne
      · exact h.returned t ht retried result (hsame ▸ hreturned)

theorem isolated_use (h : s.Isolated) (extra : Option SessionUse)
    (hextra : ∀ use ∈ extra, ∀ u ∈ s.uses, u.sessionId = use.sessionId → u.turn.scope = use.turn.scope) :
    { s with uses := s.uses ++ extra.toList }.Isolated := by
  have hsub : s.uses ⊆ s.uses ++ extra.toList := List.subset_append_left _ _
  refine ⟨?_, fun entry hentry => (h.entries entry hentry).mono hsub,
    fun entry hentry => (h.file entry hentry).mono hsub, fun t ht id hid => (h.active t ht id hid).mono hsub,
    fun t ht retried result hstage hne => (h.returned t ht retried result hstage hne).mono hsub⟩
  cases extra with
  | none => simpa using h.shared
  | some use => exact shared_append h.shared (hextra use rfl)

theorem isolated_start (h : s.Isolated) {turn : Turn} (hguard : ApartFromUses s (.start turn)) :
    (s.start turn).Isolated := by
  refine ⟨h.shared, h.entries, h.file, fun t ht sessionId hid => ?_, fun t ht => ?_⟩
  · rcases List.mem_append.mp ht with ht | ht
    · exact h.active t ht sessionId hid
    · obtain rfl := List.mem_singleton.mp ht
      obtain ⟨entry, hentry, rfl⟩ := Option.map_eq_some_iff.mp hid
      obtain ⟨hmem, hkey⟩ := SessionEntries.get_eq_some hentry
      obtain ⟨use, huse, hproduced, hid, hsame⟩ := h.entries entry hmem
      exact ⟨use, huse, hproduced, hid, scope_eq_of_key (hguard use huse) (hsame.trans hkey)⟩
  · rcases List.mem_append.mp ht with ht | ht
    · exact h.returned t ht
    · obtain rfl := List.mem_singleton.mp ht
      exact fun retried result hstage => by cases hstage

theorem isolated_call (h : s.Isolated) (retried : Bool) (hget : s.turns[i]? = some t) :
    (s.call i t retried).Isolated := by
  have hset : (s.setTurn i { t with stage := .running retried }).Isolated :=
    isolated_setTurn h hget (List.Subset.refl _) rfl (fun _ hid => hid) fun _ _ => Or.inl (fun hstage => by cases hstage)
  refine isolated_use hset _ fun use huse u hu hsame => ?_
  obtain ⟨sessionId, hactive, rfl⟩ := Option.map_eq_some_iff.mp huse
  exact h.uses_active (List.mem_of_getElem? hget) hactive u hu hsame

theorem isolated_forget (h : s.Isolated) (hget : s.turns[i]? = some t) :
    (s.forget i t).Isolated :=
  isolated_setTurn h hget (fun _ => SessionEntries.mem_of_mem_delete) rfl (fun _ hid => by cases hid) fun _ _ => Or.inr rfl

variable {result : RuntimeRunResult}

theorem isolated_answer (h : s.Isolated) {retried : Bool}
    (hget : s.turns[i]? = some t) (hreturns : s.Returns t result) : (s.answer i t retried result).Isolated := by
  have ht : t ∈ s.turns := List.mem_of_getElem? hget
  have hused := isolated_use h (if result.newSessionId = "" then none
    else some { sessionId := result.newSessionId, turn := t.turn, produced := true }) fun use huse u hu hsame => by
    split at huse
    · cases huse
    · rename_i hne
      obtain rfl := Option.some.inj huse
      rcases hreturns with hempty | hgiven | hfresh
      · exact absurd hempty hne
      · exact h.uses_active ht hgiven u hu hsame
      · exact absurd hsame (hfresh u hu)
  refine ⟨hused.shared, hused.entries, hused.file, fun other hother => ?_, fun other hother => ?_⟩
  · rcases List.mem_or_eq_of_mem_set hother with hother | rfl
    · exact hused.active other hother
    · exact hused.active t ht
  · rcases List.mem_or_eq_of_mem_set hother with hother | rfl
    · exact hused.returned other hother
    · intro again returned hstage hne
      obtain ⟨-, rfl⟩ := RuntimeStage.returned.inj hstage
      refine ⟨{ sessionId := result.newSessionId, turn := t.turn, produced := true }, ?_, rfl, rfl, rfl⟩
      rw [answer, if_neg hne]
      exact List.mem_append_right _ List.mem_cons_self

/-- Whatever a turn writes at its end, an entry that is new is the session its own runtime has returned. -/
theorem mem_persist {replyText : String} {entries : SessionEntries}
    {entry : GatewaySessionEntry} (h : entry ∈ t.persist policy result replyText entries) :
    entry ∈ entries ∨ result.newSessionId ≠ "" ∧ entry = t.newEntry result := by
  unfold SessionTurn.persist at h
  split at h
  · exact Or.inl (SessionEntries.mem_of_mem_delete h)
  · split at h
    · rename_i hnew
      rw [Bool.and_eq_true, decide_eq_true_iff] at hnew
      exact (SessionEntries.mem_of_mem_put h).symm.imp_right fun heq => ⟨hnew.1, heq⟩
    · split at h
      · exact Or.inl (SessionEntries.mem_of_mem_delete h)
      · exact Or.inl h

theorem isolated_persist (h : s.Isolated) {retried : Bool}
    {replyText : String} (hget : s.turns[i]? = some t) (hstage : t.stage = .returned retried result) :
    ({ s with entries := t.persist policy result replyText s.entries }.setTurn i { t with stage := .ended }).Isolated := by
  have ht : t ∈ s.turns := List.mem_of_getElem? hget
  have hset : (s.setTurn i { t with stage := .ended }).Isolated :=
    isolated_setTurn h hget (List.Subset.refl _) rfl (fun _ hid => hid) fun _ _ => Or.inl (fun hended => by cases hended)
  refine ⟨hset.shared, fun entry hentry => ?_, hset.file, hset.active, hset.returned⟩
  rcases mem_persist hentry with hentry | ⟨hne, rfl⟩
  · exact h.entries entry hentry
  · obtain ⟨use, huse, hproduced, hid, hturn⟩ := h.returned t ht retried result hstage hne
    exact ⟨use, huse, hproduced, hid, by rw [hturn]; rfl⟩

theorem isolated_turnStep (h : s.Isolated) {action : TurnAction} (hget : s.turns[i]? = some t)
    (hnext : s.turnStep policy i t action = some next) : next.Isolated := by
  cases action with
  | rotate =>
    obtain ⟨-, rfl⟩ := Option.ite_some_none_eq_some.mp hnext
    exact isolated_forget h hget
  | call =>
    obtain ⟨-, rfl⟩ := Option.ite_some_none_eq_some.mp hnext
    exact isolated_call h false hget
  | answer result =>
    simp only [turnStep] at hnext
    split at hnext
    · obtain ⟨hreturns, rfl⟩ := Option.ite_some_none_eq_some.mp hnext
      exact isolated_answer h hget hreturns
    · cases hnext
  | retryFresh =>
    simp only [turnStep] at hnext
    split at hnext
    · obtain ⟨-, rfl⟩ := Option.ite_some_none_eq_some.mp hnext
      have hlt : i < s.turns.length := (List.getElem?_eq_some_iff.mp hget).1
      exact isolated_call (isolated_forget h hget) true (List.getElem?_set_self hlt)
    · cases hnext
  | retryTransient =>
    simp only [turnStep] at hnext
    split at hnext
    · obtain ⟨-, rfl⟩ := Option.ite_some_none_eq_some.mp hnext
      exact isolated_call h true hget
    · cases hnext
  | persist replyText =>
    simp only [turnStep] at hnext
    split at hnext
    · rename_i hstage
      obtain ⟨-, hnext⟩ := Option.ite_none_left_eq_some.mp hnext
      obtain rfl := Option.some.inj hnext
      exact isolated_persist h hget hstage
    · cases hnext
  | drop =>
    obtain rfl := Option.some.inj hnext
    exact isolated_setTurn h hget (List.Subset.refl _) rfl (fun _ hid => hid) fun _ _ =>
      Or.inl (fun hended => by cases hended)

theorem isolated_step (h : s.Isolated) {action : SessionAction} (hguard : ApartFromUses s action)
    (hnext : (sessionSystem policy).step s action = some next) : next.Isolated := by
  cases action with
  | start turn =>
    obtain rfl := Option.some.inj hnext
    exact isolated_start h hguard
  | turn i action =>
    obtain ⟨t, hget, hnext⟩ := Option.bind_eq_some_iff.mp hnext
    exact isolated_turnStep h hget hnext
  | flush =>
    obtain rfl := Option.some.inj hnext
    exact ⟨h.shared, h.entries, h.entries, h.active, h.returned⟩
  | reload pruned =>
    obtain rfl := Option.some.inj hnext
    exact ⟨h.shared, fun entry hentry => h.file entry (List.mem_of_mem_filter hentry), h.file,
      fun t ht => absurd ht List.not_mem_nil, fun t ht => absurd ht List.not_mem_nil⟩

theorem isolated_empty : ({} : Sessions).Isolated := by
  refine ⟨?_, ?_, ?_, ?_, ?_⟩ <;> exact fun _ hmem => absurd hmem List.not_mem_nil

theorem lastProducer_eq (h : s.Isolated) (ht : t ∈ s.turns)
    (hactive : t.activeSessionId = some sessionId) : s.lastProducer sessionId = some t.turn.scope := by
  obtain ⟨producer, hproducer, hproduced, hid, -⟩ := h.active t ht sessionId hactive
  have hmem : producer ∈ s.uses.filter fun use => use.produced && use.sessionId = sessionId := by
    simp [hproducer, hproduced, hid]
  obtain ⟨last, hlast⟩ := Option.isSome_iff_exists.mp
    (List.getLast?_isSome.mpr (List.ne_nil_of_mem hmem))
  have hlastmem := List.mem_filter.mp (List.mem_of_getLast? hlast)
  simp only [Bool.and_eq_true, decide_eq_true_eq] at hlastmem
  rw [lastProducer, hlast, Option.map_some]
  rw [h.uses_active ht hactive last hlastmem.1 hlastmem.2.2]

end Sessions

/-- In every run in which a turn starts apart from those that have used a session, the session that a turn is to resume was last returned to a turn of the same scope, and no turn of another scope has used it. -/
theorem sessions_isolated {policy : SessionPolicy} {actions : List SessionAction} {s : Sessions}
    (hmeets : (sessionSystem policy).Meets ApartFromUses {} actions)
    (hrun : (sessionSystem policy).run {} actions = some s) :
    ∀ t ∈ s.turns, ∀ sessionId ∈ t.activeSessionId, s.lastProducer sessionId = some t.turn.scope ∧
      ∀ use ∈ s.uses, use.sessionId = sessionId → use.turn.scope = t.turn.scope := by
  have h : s.Isolated := System.run_invariant_of_meets _ (fun _ _ _ h hguard hnext => Sessions.isolated_step h hguard hnext)
    Sessions.isolated_empty hmeets hrun
  exact fun t ht sessionId hactive => ⟨Sessions.lastProducer_eq h ht hactive, h.uses_active ht hactive⟩

/-- A message in a room of the agent, by its owner or by a stranger, in the thread of a topic. -/
def roomTurn (own : Bool) (topic : String) : Turn where
  msg := {
    id := "h_1", channel := "botcord", accountId := "ag_0", text := "hello"
    conversation := { id := "rm_1", kind := .group, threadId := some topic }
    sender := { id := "ag_1", kind := .agent }
    raw := some { hubMsgId := "h_1", roomId := some "rm_1", topic := some topic, senderSameOwner := some own } }
  route := { runtime := "claude-code", nonOwnerExecution := some .restricted }
  channel := { id := "botcord", type := "botcord" }

def keepsSessions : SessionPolicy where
  maxResumeInputTokens := 0
  maxResumeTurns := 0
  looksLikeRuntimeAuthFailure _ := false
  looksLikeRecoverableSessionFailure _ := false
  looksLikeTransientRuntimeError _ := false
  looksLikeUsageLimit _ := false

/-- A turn whose runtime starts a session, and two turns after it. -/
def threeTurns (first second third : Turn) : List SessionAction :=
  [.start first, .turn 0 .call, .turn 0 (.answer { text := "ok", newSessionId := "s_1" }), .turn 0 (.persist "ok"),
    .start second, .turn 1 .call, .start third, .turn 2 .call]

/-- An owner, a stranger and the owner again, in the thread of one topic. -/
def sameTopic : List SessionAction := threeTurns (roomTurn true "x") (roomTurn false "x") (roomTurn true "x")

theorem sessions_isolated_sameTopic :
    ∃ s, (sessionSystem keepsSessions).run {} sameTopic = some s ∧
      (s.turns.map (·.activeSessionId)) = [none, none, some "s_1"] ∧
      ∀ t ∈ s.turns, ∀ sessionId ∈ t.activeSessionId, s.lastProducer sessionId = some t.turn.scope ∧
        ∀ use ∈ s.uses, use.sessionId = sessionId → use.turn.scope = t.turn.scope := by
  have hmeets : (sessionSystem keepsSessions).Meets ApartFromUses {} sameTopic := by decide +kernel
  exact ⟨_, rfl, by decide +kernel, sessions_isolated hmeets rfl⟩

/-- A stranger's turn in the thread `x` resumes the session of the owner's turn in the thread `x#restricted`. -/
theorem restricted_resumes_owner :
    ∃ s, (sessionSystem keepsSessions).run {}
        (threeTurns (roomTurn true "x#restricted") (roomTurn false "x") (roomTurn true "y")) = some s ∧
      ∃ t ∈ s.turns, t.turn.scope.execution = .restricted ∧ t.activeSessionId = some "s_1" ∧
        s.lastProducer "s_1" ≠ some t.turn.scope ∧
        ∃ use ∈ s.uses, use.sessionId = "s_1" ∧ use.turn.scope.execution = .owner :=
  ⟨_, rfl, by decide +kernel⟩

end BotCord.Gateway
