import BotCord.Gateway.RunTurn

/-!
# What the runtime is told

The text of each call of `runtime.run` in `runTurn`, with `buildMemoryUpdateNotice` and `buildRuntimeRecoveryPrompt` of `dispatcher.ts` and `responseInstructions` of `response-protocol.ts`. A prompt is kept as the parts it is put together from; the text of the code is their concatenation.

The text is built up in the order of the code: the user turn, a notice about the memory around it, the instructions for the response run in front. A rotated session and a retry in a fresh session build it anew from the user turn.
-/

namespace BotCord.Gateway

def responseInstructions (runId roomId : String) (ids : List String) (automaticDelivery : Bool) : String :=
  let context := "[BotCord response execution: " ++ runId ++ "; room: " ++ roomId ++ "; input message IDs: " ++
    ",".intercalate ids ++ ". Historical messages and quotes are context, not additional inputs.\n"
  let structured :=
    if ids.length = 1 then
      "For automatic final-text delivery, reply with ordinary final text, or exactly NO_REPLY when no response is needed.\n"
    else
      "For automatic final-text delivery, you may return exactly <botcord-response>\x7b\"responds_to\":[\"message-id\"],\"no_reply\":[\"other-id\"],\"text\":\"your final reply\"\x7d</botcord-response>. Only include IDs from this execution. A bare NO_REPLY resolves only a single-input execution; for a batch name each no_reply target.\n"
  if automaticDelivery then
    context ++ structured ++ "The daemon will deliver your final reply to this room; do not also send it with a tool or CLI. A plain final reply is associated automatically only when there is one input.]\n\n"
  else
    context ++
      "Before working, declare targets: botcord response start --run-id " ++ runId ++ " --room " ++ roomId ++
      " --messages <id,id>. " ++
      "For messages needing no response: botcord response no-reply --run-id " ++ runId ++ " --room " ++ roomId ++
      " --messages <id,id>. " ++
      "Before sending a selected reply, report botcord response replying --run-id " ++ runId ++ " --room " ++ roomId ++
      " --messages <id,id>. " ++
      "To send, use botcord send --to " ++ roomId ++ " --run-id " ++ runId ++
      " --responds-to <id,id> --response-kind progress|final --message-id <stable-uuid> --text \"...\". Reuse the message UUID when retrying the SAME send. Ordinary unassociated sends do not resolve inputs.\n" ++
      structured ++ "]\n\n"

inductive PromptPart
  | userTurn (text : String)
  | instructions (runId roomId : String) (ids : List String) (automaticDelivery : Bool)
  | words (text : String)
deriving DecidableEq

def PromptPart.text : PromptPart → String
  | .userTurn text => text
  | .instructions runId roomId ids automaticDelivery => responseInstructions runId roomId ids automaticDelivery
  | .words text => text

abbrev Prompt := List PromptPart

def Prompt.text (prompt : Prompt) : String := String.join (prompt.map PromptPart.text)

/-- `[...lines, userTurn].join("\n")` -/
def linesBefore (lines : List String) (userTurn : String) : Prompt :=
  [.words ("\n".intercalate lines ++ "\n"), .userTurn userTurn]

def buildMemoryUpdateNotice (previousVersion : Option String) (currentVersion userTurn : String) : Prompt :=
  linesBefore
    ["[BotCord Memory Update Notice]",
      "The persistent working memory changed since this runtime session last used it (previous: " ++
        previousVersion.getD "none" ++ ", current: " ++ currentVersion ++ ").",
      "Before acting on the message below, retrieve the latest working memory through the available BotCord memory tool or CLI, then treat that latest memory as authoritative.",
      "If using the local daemon CLI, run: botcord-daemon memory get",
      "The latest memory supersedes older goals, monitoring rules, preferences, and task state in the resumed conversation.",
      "",
      "[Current Message]"]
    userTurn

/-- The longest front of a text of at most so many UTF-16 code units; half a surrogate pair at the cut is left out. -/
def unitsFront : ℕ → List Char → List Char
  | _, [] => []
  | units, c :: rest =>
    let width := if c.toNat < 0x10000 then 1 else 2
    if width ≤ units then c :: unitsFront (units - width) rest else []

def truncate (s : String) (max : ℕ) : String :=
  if length s ≤ max then s else String.ofList (unitsFront max s.toList) ++ "…"

def buildRuntimeRecoveryPrompt (userTurn runtimeLabel reason : String) (error recoveryContext : Option String) : Prompt :=
  linesBefore
    (["[BotCord Runtime Recovery Notice]",
        "The previous " ++ runtimeLabel ++ " runtime session for this room " ++ reason ++ "."] ++
      ((error.filter (· ≠ "")).map fun error => "Previous runtime error: " ++ truncate error 1000).toList ++
      ["You are now running in a fresh " ++ runtimeLabel ++ " session.",
        "Use the recent room messages below, current filesystem state, and available BotCord memory/context tools to reconstruct the active task.",
        "Continue the original user request without asking the user to repeat information unless it is missing from those sources.",
        "",
        ((recoveryContext.map trim).filter (· ≠ "")).getD "[Recent Room Messages]\n(unavailable)",
        "",
        "[Current User Turn]"])
    userTurn

def RECOVERY_REASON_FAILURE : String := "became unrecoverable while resuming or compacting context"

def rotationReason (turns : ℕ) (inputTokens : Option ℕ) : String :=
  let detail := match inputTokens with
    | some inputTokens => "prev turn input ≈ " ++ toString inputTokens ++ " tokens across " ++ toString turns ++ " turn(s)"
    | none => toString turns ++ " turn(s)"
  "was rotated to a fresh session to control context growth (" ++ detail ++ ")"

structure RuntimeCall where
  prompt : Prompt
  sessionId : Option String

def RuntimeCall.text (call : RuntimeCall) : String := call.prompt.text

/-- What the calls of a turn depend on. `seenMemoryVersion`: the version of the memory kept with the entry. `memoryVersion`: that of the snapshot, if there is one. `recoveryContext`: what the builder of the context gives. `ready`: the response run is registered, and nothing before the first call has thrown. `first`: what the first call returns; none if it throws. `retrySafe`: its blocks were observed and are those of the lifecycle only. `stopped`: the turn is superseded, out of time or over its budget when the first call has returned. `stoppedAfter`: the same, after the pause before a transient failure is retried. -/
structure PromptTurn where
  turnId : String
  turn : Turn
  text : String
  entry : Option GatewaySessionEntry := none
  seenMemoryVersion : Option String := none
  memoryVersion : Option String := none
  recoveryContext : Option String := none
  ready : Bool := true
  first : Option RuntimeRunResult := none
  retrySafe : Bool := false
  stopped : Bool := false
  stoppedAfter : Bool := false

namespace PromptTurn

variable (policy : SessionPolicy) (x : PromptTurn)

def session : SessionTurn where
  turn := x.turn
  entry := x.entry
  activeSessionId := x.entry.map (·.runtimeSessionId)

/-- The user turn, in the notice of a memory that a resumed session has not seen. -/
def noticedText : Prompt :=
  match x.memoryVersion with
  | some version =>
    if version ≠ "" ∧ x.session.activeSessionId.any (· ≠ "") ∧ x.seenMemoryVersion ≠ some version then
      buildMemoryUpdateNotice x.seenMemoryVersion version x.text
    else [.userTurn x.text]
  | none => [.userTurn x.text]

def instructions : PromptPart :=
  .instructions x.turnId x.turn.msg.conversation.id x.turn.responseIds (x.turn.restricted || x.turn.teamDelivery)

def resumePrompt : Prompt := if x.turn.responseIds = [] then x.noticedText else x.instructions :: x.noticedText

def rotationDecision (entry : Option GatewaySessionEntry) : Option String :=
  entry.bind fun e =>
    if SessionTurn.reached policy.maxResumeInputTokens e.lastInputTokens then
      some (rotationReason (e.turnCount.getD 0) e.lastInputTokens)
    else if SessionTurn.reached policy.maxResumeTurns e.turnCount then some (rotationReason (e.turnCount.getD 0) none)
    else none

def rotation : Option String :=
  if x.session.activeSessionId.any (· ≠ "") then rotationDecision policy x.session.entry else none

def recoveryPrompt (reason : String) (error : Option String) : Prompt :=
  buildRuntimeRecoveryPrompt x.text x.turn.route.runtime reason error x.recoveryContext

/-- The prompt of the first call, and the turn with the session it is to resume. -/
def prepare : Prompt × SessionTurn :=
  match x.rotation policy with
  | some reason => (x.recoveryPrompt reason none, { x.session with activeSessionId := none })
  | none => (x.resumePrompt, x.session)

/-- The calls of the runtime, in their order. -/
def runtimeCalls : List RuntimeCall :=
  if x.ready then
    let (runtimeText, t) := x.prepare policy
    let call := { prompt := runtimeText, sessionId := t.activeSessionId }
    match x.first with
    | none => [call]
    | some result =>
      if !x.stopped && t.shouldRetryFresh policy result then
        [call, { prompt := x.recoveryPrompt RECOVERY_REASON_FAILURE result.error, sessionId := none }]
      else if !x.stopped && x.retrySafe && t.shouldRetryTransient policy result && !x.stoppedAfter then [call, call]
      else [call]
  else []

/-- The first call has failed in a way that is retried in a fresh session. -/
def retriesFresh : Bool := !x.stopped && x.first.any (x.session.shouldRetryFresh policy)

/-- The turn builds its text anew for a fresh session. -/
def StartsOver : Prop := (x.rotation policy).isSome ∨ x.retriesFresh policy

end PromptTurn

/-- The part is one of the prompt's, and can be read in its text. -/
def RuntimeCall.Passes (call : RuntimeCall) (part : PromptPart) : Prop :=
  part ∈ call.prompt ∧ part.text.toList <:+: call.text.toList

/-- The call passes on the user turn and, if the turn has registered inputs, the instructions for these. -/
structure PromptTurn.InContext (x : PromptTurn) (call : RuntimeCall) : Prop where
  userTurn : call.Passes (.userTurn x.text)
  instructions : x.turn.responseIds ≠ [] → call.Passes x.instructions

/-- The code reads the decision and the reason in one; the session a turn resumes depends on the decision alone. -/
theorem PromptTurn.isSome_rotation (policy : SessionPolicy) (x : PromptTurn) :
    (x.rotation policy).isSome = x.session.rotates policy := by
  rw [rotation, SessionTurn.rotates]
  split
  · rename_i hresumes
    rw [hresumes, Bool.true_and, rotationDecision, SessionTurn.rotationDecision]
    cases x.session.entry with
    | none => rfl
    | some entry =>
      rw [Option.bind_some, Option.any_some]
      split
      · rename_i htokens
        rw [htokens]
        rfl
      · rename_i htokens
        rw [Bool.eq_false_of_not_eq_true htokens, Bool.false_or]
        split
        · rename_i hturns
          rw [hturns]
          rfl
        · rename_i hturns
          rw [Bool.eq_false_of_not_eq_true hturns]
          rfl
  · rename_i hfresh
    rw [Bool.eq_false_of_not_eq_true hfresh]
    rfl

theorem infix_text {prompt : Prompt} {part : PromptPart} (h : part ∈ prompt) :
    part.text.toList <:+: prompt.text.toList := by
  obtain ⟨front, back, rfl⟩ := List.append_of_mem h
  refine ⟨(Prompt.text front).toList, (Prompt.text back).toList, ?_⟩
  rw [Prompt.text, Prompt.text, Prompt.text, String.toList_join, String.toList_join, String.toList_join]
  simp

theorem RuntimeCall.passes_iff {call : RuntimeCall} {part : PromptPart} : call.Passes part ↔ part ∈ call.prompt :=
  ⟨And.left, fun h => ⟨h, infix_text h⟩⟩

namespace PromptTurn

variable {policy : SessionPolicy} {x : PromptTurn}

theorem userTurn_mem_noticedText : .userTurn x.text ∈ x.noticedText := by
  rw [noticedText]
  split
  · split
    · simp [buildMemoryUpdateNotice, linesBefore]
    · exact List.mem_singleton.mpr rfl
  · exact List.mem_singleton.mpr rfl

theorem userTurn_mem_recoveryPrompt (reason : String) (error : Option String) :
    .userTurn x.text ∈ x.recoveryPrompt reason error := by
  simp [recoveryPrompt, buildRuntimeRecoveryPrompt, linesBefore]

theorem instructions_not_mem_recoveryPrompt (reason : String) (error : Option String) :
    x.instructions ∉ x.recoveryPrompt reason error := by
  simp [recoveryPrompt, buildRuntimeRecoveryPrompt, linesBefore, instructions]

theorem inContext_resumePrompt (sessionId : Option String) :
    x.InContext { prompt := x.resumePrompt, sessionId } := by
  constructor
  · rw [RuntimeCall.passes_iff, resumePrompt]
    split
    · exact userTurn_mem_noticedText
    · exact List.mem_cons_of_mem _ userTurn_mem_noticedText
  · intro hids
    rw [RuntimeCall.passes_iff, resumePrompt, if_neg hids]
    exact List.mem_cons_self

theorem inContext_recoveryPrompt_iff (reason : String) (error sessionId : Option String) :
    x.InContext { prompt := x.recoveryPrompt reason error, sessionId } ↔ x.turn.responseIds = [] := by
  constructor
  · intro h
    by_contra hids
    exact instructions_not_mem_recoveryPrompt reason error (RuntimeCall.passes_iff.mp (h.instructions hids))
  · intro hids
    exact ⟨RuntimeCall.passes_iff.mpr (userTurn_mem_recoveryPrompt reason error), fun hne => absurd hids hne⟩

theorem ready_of_mem_runtimeCalls {call : RuntimeCall} (hcall : call ∈ x.runtimeCalls policy) : x.ready = true := by
  by_contra hready
  rw [runtimeCalls, if_neg hready] at hcall
  exact absurd hcall List.not_mem_nil

theorem first_mem_runtimeCalls (hready : x.ready = true) :
    { prompt := (x.prepare policy).1, sessionId := (x.prepare policy).2.activeSessionId } ∈ x.runtimeCalls policy := by
  rw [runtimeCalls, if_pos hready]
  dsimp only
  split
  · exact List.mem_cons_self
  · split
    · exact List.mem_cons_self
    · split <;> exact List.mem_cons_self

theorem runtimeCalls_of_first (hready : x.ready = true) {result : RuntimeRunResult} (hfirst : x.first = some result) :
    x.runtimeCalls policy =
      { prompt := (x.prepare policy).1, sessionId := (x.prepare policy).2.activeSessionId } ::
        if !x.stopped && (x.prepare policy).2.shouldRetryFresh policy result then
          [{ prompt := x.recoveryPrompt RECOVERY_REASON_FAILURE result.error, sessionId := none }]
        else if !x.stopped && x.retrySafe && (x.prepare policy).2.shouldRetryTransient policy result && !x.stoppedAfter then
          [{ prompt := (x.prepare policy).1, sessionId := (x.prepare policy).2.activeSessionId }]
        else [] := by
  rw [runtimeCalls, if_pos hready]
  dsimp only
  rw [hfirst]
  dsimp only
  split
  · rfl
  · split <;> rfl

theorem eq_of_mem_runtimeCalls {call : RuntimeCall} (hcall : call ∈ x.runtimeCalls policy) :
    call = { prompt := (x.prepare policy).1, sessionId := (x.prepare policy).2.activeSessionId } ∨
      (!x.stopped && x.first.any ((x.prepare policy).2.shouldRetryFresh policy)) = true ∧
        ∃ error, call = { prompt := x.recoveryPrompt RECOVERY_REASON_FAILURE error, sessionId := none } := by
  rw [runtimeCalls] at hcall
  split at hcall
  · dsimp only at hcall
    split at hcall
    · exact .inl (List.mem_singleton.mp hcall)
    · rename_i result hfirst
      split at hcall
      · rename_i hfresh
        rcases List.mem_cons.mp hcall with rfl | hcall
        · exact .inl rfl
        · rw [List.mem_singleton.mp hcall, hfirst]
          exact .inr ⟨hfresh, result.error, rfl⟩
      · split at hcall
        all_goals
          simp only [List.mem_cons, List.not_mem_nil, or_false, or_self] at hcall
          exact .inl hcall
  · exact absurd hcall List.not_mem_nil

theorem fresh_mem_runtimeCalls (hready : x.ready = true)
    (hfresh : (!x.stopped && x.first.any ((x.prepare policy).2.shouldRetryFresh policy)) = true) :
    ∃ error, { prompt := x.recoveryPrompt RECOVERY_REASON_FAILURE error, sessionId := none } ∈ x.runtimeCalls policy := by
  cases hfirst : x.first with
  | none => simp [hfirst] at hfresh
  | some result =>
    rw [hfirst, Option.any_some] at hfresh
    refine ⟨result.error, ?_⟩
    rw [runtimeCalls_of_first hready hfirst, if_pos hfresh]
    exact List.mem_cons_of_mem _ List.mem_cons_self

theorem prepare_rotated {reason : String} (h : x.rotation policy = some reason) :
    x.prepare policy = (x.recoveryPrompt reason none, { x.session with activeSessionId := none }) := by
  rw [prepare, h]

theorem prepare_resumed (h : x.rotation policy = none) : x.prepare policy = (x.resumePrompt, x.session) := by
  rw [prepare, h]

theorem inContext_rotated_iff {reason : String} (hready : x.ready = true) (hrotation : x.rotation policy = some reason) :
    (∀ call ∈ x.runtimeCalls policy, x.InContext call) ↔ x.turn.responseIds = [] := by
  have hprompt := congrArg Prod.fst (prepare_rotated hrotation)
  constructor
  · intro h
    have hfirst := h _ (first_mem_runtimeCalls hready)
    rwa [hprompt, inContext_recoveryPrompt_iff] at hfirst
  · intro hids call hmem
    rcases eq_of_mem_runtimeCalls hmem with rfl | ⟨-, error, rfl⟩
    · rwa [hprompt, inContext_recoveryPrompt_iff]
    · rwa [inContext_recoveryPrompt_iff]

/-- A turn that resumes its session, or has none, builds its text anew only to retry in a fresh session. -/
theorem inContext_resumed_iff (hready : x.ready = true) (hrotation : x.rotation policy = none) :
    (∀ call ∈ x.runtimeCalls policy, x.InContext call) ↔ x.turn.responseIds = [] ∨ x.retriesFresh policy = false := by
  have hprepare := prepare_resumed hrotation
  constructor
  · intro h
    cases hfresh : x.retriesFresh policy with
    | false => exact .inr rfl
    | true =>
      have hretry : (!x.stopped && x.first.any ((x.prepare policy).2.shouldRetryFresh policy)) = true := by
        rw [hprepare]
        exact hfresh
      obtain ⟨error, hmem⟩ := fresh_mem_runtimeCalls hready hretry
      exact .inl ((inContext_recoveryPrompt_iff _ _ _).mp (h _ hmem))
  · intro h call hmem
    rcases eq_of_mem_runtimeCalls hmem with rfl | ⟨hretry, error, rfl⟩
    · rw [hprepare]
      exact inContext_resumePrompt _
    · rw [hprepare] at hretry
      rw [inContext_recoveryPrompt_iff]
      exact h.resolve_right (ne_of_eq_of_ne hretry Bool.noConfusion)

end PromptTurn

/-- Every call of the runtime passes on the user turn and the instructions for the inputs the turn has registered, exactly when none are registered, the runtime is not called, or neither a rotation nor a retry in a fresh session builds the text anew. -/
theorem runtime_in_context (policy : SessionPolicy) (x : PromptTurn) :
    (∀ call ∈ x.runtimeCalls policy, x.InContext call) ↔
      x.turn.responseIds = [] ∨ x.ready = false ∨ ¬ x.StartsOver policy := by
  cases hready : x.ready with
  | false =>
    have hnone : x.runtimeCalls policy = [] := by
      rw [PromptTurn.runtimeCalls, hready]
      rfl
    simp [hnone]
  | true =>
    cases hrotation : x.rotation policy with
    | some reason =>
      rw [PromptTurn.inContext_rotated_iff hready hrotation]
      simp [PromptTurn.StartsOver, hrotation]
    | none =>
      rw [PromptTurn.inContext_resumed_iff hready hrotation]
      simp [PromptTurn.StartsOver, hrotation]

/-- Sessions are dropped after two turns. -/
def rotatesAfterTwo : SessionPolicy where
  maxResumeInputTokens := 0
  maxResumeTurns := 2
  looksLikeRuntimeAuthFailure _ := false
  looksLikeRecoverableSessionFailure _ := false
  looksLikeTransientRuntimeError _ := false
  looksLikeUsageLimit _ := false

def thirdTurn : PromptTurn where
  turnId := "turn_1"
  turn := {
    msg := {
      id := "h_1", channel := "botcord", accountId := "ag_0", text := "hello"
      conversation := { id := "rm_1", kind := .group }
      sender := { id := "ag_1", kind := .agent }
      raw := some { hubMsgId := "h_1", envelope := some { msgId := some "m_1" }, roomId := some "rm_1" } }
    route := { runtime := "claude-code" }
    channel := { id := "botcord", type := "botcord" } }
  text := "hello"
  entry := some { key := "k", runtimeSessionId := "s_1", turnCount := some 2 }
  first := some { text := "hi", newSessionId := "s_2" }

/-- Its runtime is called once, in a fresh session, and is not told which run and which message it answers. -/
theorem third_turn_uninstructed :
    thirdTurn.turn.responseIds = ["m_1"] ∧ thirdTurn.ready = true ∧
      ∃ call, thirdTurn.runtimeCalls rotatesAfterTwo = [call] ∧ call.sessionId = none ∧
        ¬ thirdTurn.InContext call ∧ ¬ "[BotCord response execution: ".toList <:+: call.text.toList := by
  refine ⟨by decide +kernel, rfl, _, rfl, rfl, ?_, by decide +kernel⟩
  intro h
  have hids : thirdTurn.turn.responseIds ≠ [] := by decide +kernel
  have hmem := RuntimeCall.passes_iff.mp (h.instructions hids)
  revert hmem
  decide +kernel

end BotCord.Gateway
