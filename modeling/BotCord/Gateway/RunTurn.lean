import BotCord.Gateway.Merge
import BotCord.Gateway.RuntimeSessions

/-!
# A turn, from one await to the next

`runTurn` of the dispatcher as a machine of its own. A phase is an await of the code; an event is what ends that await, and everything up to the next await happens with it. What the turn does to the world outside is kept with it: the records it writes to the transcript, and each send of the channel and each write of a session that it starts.
-/

namespace BotCord.Gateway

inductive DropReason
  | queueOverflow | batchMerged | queueCancelPrevious

inductive RecordKind
  | inbound | dispatched | outbound | turnError | attentionSkipped
  | dropped (reason : DropReason)

inductive Effect
  | sendReply | sendError | storeSession
deriving DecidableEq

/-- An effect, and whether the turn was silenced by then: superseded, and neither out of time nor over its budget. -/
structure TurnEffect where
  effect : Effect
  silenced : Bool
deriving DecidableEq

def BufferedSerialEntry.turn (e : BufferedSerialEntry) : Turn := { msg := e.msg, route := e.route, channel := e.channel }

def isOwnerChatRoom (msg : GatewayInboundMessage) : Bool :=
  startsWith msg.conversation.id OWNER_CHAT_PREFIX || (msg.raw.bind fun raw => raw.sourceType) = some "dashboard_user_chat"

/-- The ids of the messages the Hub expects a response to, each once. -/
def responseInputIds (msg : GatewayInboundMessage) : List String :=
  let entries := ((msg.raw.bind Raw.batch).map (·.map some)).getD [msg.raw.map Raw.toInboxMessage]
  (entries.filterMap fun entry => (entry.bind InboxMessage.envelope).bind fun env =>
    env.msgId.filter fun _ => env.type = "message").eraseDups

namespace Turn

variable (turn : Turn)

def responseIds : List String := if turn.channel.responseRun then responseInputIds turn.msg else []

def restrictedDelivery : Bool :=
  turn.restricted && isBotCordChannel turn.channel && !isContactRequest turn.msg

def teamDelivery : Bool :=
  isBotCordChannel turn.channel && isTeamConversation turn.msg && !isContactRequest turn.msg

/-- `targets`: the messages a decision of the runtime responds to. -/
def canDeliverRuntimeText (targets : Option (List String)) : Bool :=
  isOwnerChatRoom turn.msg || !isBotCordChannel turn.channel || turn.restrictedDelivery || turn.teamDelivery ||
    targets.any (· ≠ [])

def canDeliverRuntimeDiagnostics : Bool := turn.canDeliverRuntimeText none || isBotCordChannel turn.channel

/-- Only a group room of the BotCord channel that is not the owner's may wait. -/
def parkEligible : Bool :=
  isBotCordChannel turn.channel && !isOwnerChatRoom turn.msg && turn.msg.conversation.kind = .group

@[simp] theorem canDeliverRuntimeDiagnostics_eq : turn.canDeliverRuntimeDiagnostics = true := by
  unfold canDeliverRuntimeDiagnostics canDeliverRuntimeText
  cases isBotCordChannel turn.channel <;> simp

end Turn

structure ResponseDecision where
  respondsTo : List String
  noReply : List String
  text : String
deriving DecidableEq

/-- `parseResponseDecision`: `none` throws, `some none` is a text without a decision. -/
structure TurnPolicy extends SessionPolicy where
  parseResponseDecision : String → List String → Option (Option ResponseDecision)

/-- How the calls of the runtime have ended: with a result (`resumed`: in the session the turn was to resume), or with an exception (`truthy`: one that is not `undefined`, `null`, `false`, `0` or empty), perhaps after a first result. -/
inductive RunOutcome
  | returned (resumed : Bool) (result : RuntimeRunResult)
  | threw (truthy : Bool) (earlier : Option (Bool × RuntimeRunResult))
deriving DecidableEq

/-- What is left of the reply, the messages it responds to, and whether the response is registered with the Hub. -/
structure TurnReply where
  text : String
  targets : Option (List String) := none
  registered : Bool := false
deriving DecidableEq

inductive TurnPhase
  | preparing
  | running
  | completing (registered : Bool) (outcome : RunOutcome)
  | reportingError
  | deciding (resumed : Bool) (result : RuntimeRunResult) (decision : Option ResponseDecision)
  | committing (resumed : Bool) (result : RuntimeRunResult) (reply : TurnReply)
  | persisting (result : RuntimeRunResult) (reply : TurnReply)
  | reportingFailure
  | replying
  | sending
  | closing
  | ended (failed : Bool)
deriving DecidableEq

/-- `superseded`: a newer message has aborted the turn. `guest`: it runs in the workspace of a guest. `members`: the calls it was merged from. `since`: how many messages had joined the queue when it started. `gen`: which of the messages that cancel the previous turn it is for. -/
structure TurnRun where
  entry : BufferedSerialEntry
  members : List TurnId
  since : ℕ
  gen : Option ℕ := none
  phase : TurnPhase := .preparing
  superseded : Bool := false
  timedOut : Bool := false
  budgetExceeded : Bool := false
  guest : Bool := false
  records : List RecordKind := []
  effects : List TurnEffect := []

inductive TurnEvent
  | prepared (guest : Bool)
  | failed
  | ran (registered : Bool) (outcome : RunOutcome)
  | timeout
  | budget
  | completed
  | errorSent
  | decided (ok : Bool)
  | committed (note : Option String)
  | persisted
  | failureSent
  | reported (ok : Bool)
  | sent (ok : Bool)
  | closed (threw : Bool)
deriving DecidableEq

namespace TurnRun

variable (t : TurnRun)

def aborted : Bool := t.superseded || t.timedOut || t.budgetExceeded

def silenced : Bool := t.superseded && !t.timedOut && !t.budgetExceeded

def live : Bool := match t.phase with
  | .ended _ => false
  | _ => true

def write (kind : RecordKind) : TurnRun := { t with records := t.records ++ [kind] }

def await (effect : Effect) (phase : TurnPhase) : TurnRun :=
  { t with effects := t.effects ++ [{ effect, silenced := t.silenced }], phase }

def close : TurnRun := { t with phase := .closing }

/-- The end of a turn that is out of time, over its budget or whose runtime threw. -/
def reportError : TurnRun :=
  if t.entry.turn.canDeliverRuntimeDiagnostics then (t.write .turnError).await .sendError .reportingError
  else (t.write .turnError).close

variable (policy : TurnPolicy)

/-- The branches at the end of a turn: an error and no text, no text, a text that stays, an explicit absence of a reply, an abort, a report of the reply to the Hub, the reply. -/
inductive Conclusion
  | failure | empty | gated | noReply | cancelled | report | send

def knownReplyTargets (reply : TurnReply) : List String :=
  reply.targets.getD (if t.entry.turn.responseIds.length = 1 then t.entry.turn.responseIds else [])

def conclusion (result : RuntimeRunResult) (reply : TurnReply) : Conclusion :=
  if reply.text = "" then if SessionTurn.hasError policy.toSessionPolicy result then .failure else .empty
  else if !t.entry.turn.canDeliverRuntimeText reply.targets then .gated
  else if (t.entry.turn.restrictedDelivery || t.entry.turn.teamDelivery) && !isOwnerChatRoom t.entry.msg &&
      reply.text = "NO_REPLY" then .noReply
  else if t.aborted && !t.timedOut then .cancelled
  else if reply.registered && t.knownReplyTargets reply ≠ [] then .report
  else .send

def conclude : Conclusion → TurnRun
  | .failure =>
    if t.entry.turn.canDeliverRuntimeDiagnostics then (t.write .turnError).await .sendError .reportingFailure
    else ((t.write .turnError).write .outbound).close
  | .empty | .gated | .noReply => (t.write .outbound).close
  | .cancelled => t.close
  | .report => { t with phase := .replying }
  | .send => t.await .sendReply .sending

/-- What a turn does after an await: it goes on to another one, stores its session, ends with an error, comes to its conclusion, or closes. -/
inductive Move
  | await (phase : TurnPhase)
  | store (result : RuntimeRunResult) (reply : TurnReply)
  | reportError
  | conclude (conclusion : Conclusion)
  | close

def take : Move → TurnRun
  | .await phase => { t with phase }
  | .store result reply => t.await .storeSession (.persisting result reply)
  | .reportError => t.reportError
  | .conclude conclusion => t.conclude conclusion
  | .close => t.close

inductive SessionWrite
  | drop | store | keep

def sessionWrite (resumed : Bool) (result : RuntimeRunResult) (reply : TurnReply) : SessionWrite :=
  if resumed && SessionTurn.hasError policy.toSessionPolicy result && reply.text = "" then .drop
  else if result.newSessionId ≠ "" && !SessionTurn.authFailed policy.toSessionPolicy result then .store
  else if resumed && SessionTurn.hasError policy.toSessionPolicy result then .drop
  else .keep

def persist (resumed : Bool) (result : RuntimeRunResult) (reply : TurnReply) : Move :=
  match sessionWrite policy resumed result reply with
  | .drop => .await (.persisting result reply)
  | .store => .store result reply
  | .keep => .conclude (t.conclusion policy result reply)

def commits (result : RuntimeRunResult) : Bool :=
  t.guest && !SessionTurn.hasError policy.toSessionPolicy result && !t.aborted

def commit (resumed : Bool) (result : RuntimeRunResult) (reply : TurnReply) : Move :=
  if t.commits policy result then .await (.committing resumed result reply) else t.persist policy resumed result reply

def replyText (result : RuntimeRunResult) : String :=
  if policy.looksLikeRuntimeAuthFailure (trim result.text) then "" else trim result.text

def withoutNoReply (text : String) : String := if text = "NO_REPLY" then "" else text

def decides (registered : Bool) (result : RuntimeRunResult) : Bool :=
  registered && !result.error.any (· ≠ "") && !policy.looksLikeRuntimeAuthFailure (trim result.text)

def decidedReply (decision : ResponseDecision) : TurnReply where
  text := withoutNoReply decision.text
  targets := some decision.respondsTo
  registered := true

def decide (registered resumed : Bool) (result : RuntimeRunResult) : Move :=
  if decides policy registered result then
    match policy.parseResponseDecision (replyText policy result) t.entry.turn.responseIds with
    | none => .close
    | some (some decision) =>
      if decision.noReply = [] ∧ decision.respondsTo = [] then t.commit policy resumed result (decidedReply decision)
      else .await (.deciding resumed result (some decision))
    | some none =>
      if replyText policy result = "NO_REPLY" ∧ t.entry.turn.responseIds.length = 1 then
        .await (.deciding resumed result none)
      else t.commit policy resumed result { text := withoutNoReply (replyText policy result), registered }
  else t.commit policy resumed result { text := replyText policy result, registered }

/-- The check after the runtime: a turn that a newer message has aborted ends here. -/
def complete (registered : Bool) (outcome : RunOutcome) : Move :=
  if t.aborted && !t.timedOut && !t.budgetExceeded then .close
  else if t.timedOut || t.budgetExceeded then .reportError
  else match outcome with
    | .returned resumed result => t.decide policy registered resumed result
    | .threw true _ => .reportError
    | .threw false (some (resumed, result)) => t.decide policy registered resumed result
    | .threw false none => .close

def replyAfter : Option ResponseDecision → TurnReply
  | some decision => decidedReply decision
  | none => { text := "", registered := true }

def withNote (reply : TurnReply) (note : Option String) : TurnReply :=
  match note.filter (· ≠ "") with
  | some note =>
    { reply with text := if reply.text ≠ "" ∧ reply.text ≠ "NO_REPLY" then reply.text ++ "\n\n" ++ note else note }
  | none => reply

/-- How a turn goes on after an await that has a branch behind it. -/
def move : TurnEvent → Option Move
  | .completed => match t.phase with
    | .completing registered outcome => some (t.complete policy registered outcome)
    | _ => none
  | .decided ok => match t.phase with
    | .deciding resumed result decision =>
      some (if ok then t.commit policy resumed result (replyAfter decision) else .close)
    | _ => none
  | .committed note => match t.phase with
    | .committing resumed result reply => some (t.persist policy resumed result (withNote reply note))
    | _ => none
  | .persisted => match t.phase with
    | .persisting result reply => some (.conclude (t.conclusion policy result reply))
    | _ => none
  | .reported ok => if t.phase = .replying then some (if ok then .conclude .send else .close) else none
  | _ => none

def step : TurnEvent → Option TurnRun
  | .prepared guest => if t.phase = .preparing then some { t with guest, phase := .running } else none
  | .failed => if t.phase = .preparing then some { t with phase := .ended true } else none
  | .ran registered outcome =>
    if t.phase = .running then some { t with phase := .completing registered outcome } else none
  | .timeout => if t.phase = .preparing ∨ t.phase = .running then some { t with timedOut := true } else none
  | .budget => if t.live ∧ ¬t.aborted then some { t with budgetExceeded := true } else none
  | .errorSent => if t.phase = .reportingError then some t.close else none
  | .failureSent => if t.phase = .reportingFailure then some (t.write .outbound).close else none
  | .sent _ => if t.phase = .sending then some (t.write .outbound).close else none
  | .closed threw => if t.phase = .closing then some { t with phase := .ended threw } else none
  | event => (t.move policy event).map t.take

/-- What a turn is about, and whether it has been superseded. -/
def frame : BufferedSerialEntry × List TurnId × ℕ × Option ℕ × Bool := (t.entry, t.members, t.since, t.gen, t.superseded)

section

variable {t policy} {event : TurnEvent} {next : TurnRun}

theorem frame_take (m : Move) : (t.take m).frame = t.frame := by
  cases m with
  | reportError =>
    rw [take, reportError]
    split <;> rfl
  | conclude conclusion =>
    cases conclusion with
    | failure =>
      rw [take, conclude]
      split <;> rfl
    | _ => rfl
  | _ => rfl

theorem frame_step (h : t.step policy event = some next) : next.frame = t.frame := by
  cases event with
  | prepared | failed | ran | timeout | budget | errorSent | failureSent | sent | closed =>
    obtain ⟨-, rfl⟩ := Option.ite_some_none_eq_some.mp h
    rfl
  | completed | decided | committed | persisted | reported =>
    obtain ⟨m, -, rfl⟩ := Option.map_eq_some_iff.mp h
    exact frame_take m

theorem live_of_move {m : Move} (h : t.move policy event = some m) : t.live = true := by
  unfold move at h
  split at h
  · split at h
    · rename_i hphase
      rw [live, hphase]
    · cases h
  · split at h
    · rename_i hphase
      rw [live, hphase]
    · cases h
  · split at h
    · rename_i hphase
      rw [live, hphase]
    · cases h
  · split at h
    · rename_i hphase
      rw [live, hphase]
    · cases h
  · obtain ⟨hphase, -⟩ := Option.ite_some_none_eq_some.mp h
    rw [live, hphase]
  · cases h

theorem live_of_step (h : t.step policy event = some next) : t.live = true := by
  cases event with
  | timeout =>
    obtain ⟨hphase | hphase, -⟩ := Option.ite_some_none_eq_some.mp h <;> rw [live, hphase]
  | budget => exact (Option.ite_some_none_eq_some.mp h).1.1
  | prepared | failed | ran | errorSent | failureSent | sent | closed =>
    have hphase := (Option.ite_some_none_eq_some.mp h).1
    rw [live, hphase]
  | completed | decided | committed | persisted | reported =>
    obtain ⟨m, hmove, -⟩ := Option.map_eq_some_iff.mp h
    exact live_of_move hmove

end

end TurnRun

end BotCord.Gateway
