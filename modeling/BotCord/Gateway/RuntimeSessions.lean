import BotCord.Foundation.Run
import BotCord.Gateway.SessionKey

/-!
# Runtime sessions of the dispatcher

Every place where `runTurn` reads, passes on, deletes or stores a session: the read at the start of a turn, the rotation of a long session, the call of the runtime, the retry in a fresh session and the retry of a transient failure, and the write at the end. The session store keeps its entries in memory and writes them to a file, which a new process loads. The turns of a run interleave in any way.
-/

namespace BotCord.Gateway

structure GatewaySessionEntry where
  key : String
  runtimeSessionId : String
  turnCount : Option ℕ := none
  lastInputTokens : Option ℕ := none

structure RuntimeRunResult where
  text : String := ""
  newSessionId : String := ""
  error : Option String := none
  inputCacheHitTokens : Option ℕ := none
  inputCacheMissTokens : Option ℕ := none
deriving DecidableEq

/-- The thresholds of the dispatcher and what it reads out of an error. -/
structure SessionPolicy where
  maxResumeInputTokens : ℕ
  maxResumeTurns : ℕ
  looksLikeRuntimeAuthFailure : String → Bool
  looksLikeRecoverableSessionFailure : String → Bool
  looksLikeTransientRuntimeError : String → Bool
  looksLikeUsageLimit : String → Bool

def FRESH_RETRY_SESSION_FAILURE_RUNTIMES : List String := ["codex", "hermes-agent", "openclaw-acp", "kimi-cli"]

/-- The entries of a `SessionStore`: at most one for each key. -/
abbrev SessionEntries := List GatewaySessionEntry

namespace SessionEntries

def get (entries : SessionEntries) (key : String) : Option GatewaySessionEntry := entries.find? (·.key = key)

def delete (entries : SessionEntries) (key : String) : SessionEntries := entries.filter (·.key ≠ key)

def put (entries : SessionEntries) (entry : GatewaySessionEntry) : SessionEntries := entry :: entries.delete entry.key

theorem mem_of_mem_delete {entries : SessionEntries} {key : String} {entry : GatewaySessionEntry}
    (h : entry ∈ entries.delete key) : entry ∈ entries := List.mem_of_mem_filter h

theorem mem_of_mem_put {entries : SessionEntries} {entry other : GatewaySessionEntry} (h : other ∈ entries.put entry) :
    other = entry ∨ other ∈ entries :=
  (List.mem_cons.mp h).imp_right mem_of_mem_delete

theorem get_eq_some {entries : SessionEntries} {key : String} {entry : GatewaySessionEntry}
    (h : entries.get key = some entry) : entry ∈ entries ∧ entry.key = key :=
  ⟨List.mem_of_find?_eq_some h, by simpa using List.find?_some h⟩

end SessionEntries

/-- Where a turn is with respect to its runtime. `retried`: the runtime is called for the second time. -/
inductive RuntimeStage
  | prepared
  | running (retried : Bool)
  | returned (retried : Bool) (result : RuntimeRunResult)
  | ended
deriving DecidableEq

/-- A turn of the dispatcher: the entry it has read and the session its runtime is to resume. -/
structure SessionTurn where
  turn : Turn
  entry : Option GatewaySessionEntry
  activeSessionId : Option String
  stage : RuntimeStage := .prepared

namespace SessionTurn

variable (policy : SessionPolicy)

def reached (threshold : ℕ) (value : Option ℕ) : Bool := 0 < threshold && value.any (threshold ≤ ·)

def rotationDecision (entry : Option GatewaySessionEntry) : Bool :=
  entry.any fun e => reached policy.maxResumeInputTokens e.lastInputTokens || reached policy.maxResumeTurns e.turnCount

/-- Whether the session the turn has read is to be dropped before the runtime is called. -/
def rotates (t : SessionTurn) : Bool := t.activeSessionId.any (· ≠ "") && rotationDecision policy t.entry

/-- The error of a first call that has not replied, if the turn may retry at all. -/
def retriableError (result : RuntimeRunResult) : Option String :=
  result.error.filter fun error => error ≠ "" && trim result.text = "" && !policy.looksLikeRuntimeAuthFailure error

def shouldRetryFresh (t : SessionTurn) (result : RuntimeRunResult) : Bool :=
  t.turn.route.runtime ∈ FRESH_RETRY_SESSION_FAILURE_RUNTIMES && t.activeSessionId.any (· ≠ "") &&
    (retriableError policy result).any policy.looksLikeRecoverableSessionFailure

def shouldRetryTransient (t : SessionTurn) (result : RuntimeRunResult) : Bool :=
  !t.shouldRetryFresh policy result && (retriableError policy result).any fun error =>
    !policy.looksLikeUsageLimit error && policy.looksLikeTransientRuntimeError error

def effectiveError (result : RuntimeRunResult) : Option String :=
  result.error.or (if policy.looksLikeRuntimeAuthFailure (trim result.text) then some (trim result.text) else none)

def hasError (result : RuntimeRunResult) : Bool := (effectiveError policy result).any (· ≠ "")

def authFailed (result : RuntimeRunResult) : Bool :=
  (effectiveError policy result).any policy.looksLikeRuntimeAuthFailure

def reportedInputTokens (result : RuntimeRunResult) : Option ℕ :=
  if result.inputCacheHitTokens.isSome || result.inputCacheMissTokens.isSome then
    some (result.inputCacheHitTokens.getD 0 + result.inputCacheMissTokens.getD 0)
  else none

def nextTurnCount (t : SessionTurn) : ℕ :=
  if t.activeSessionId.any (· ≠ "") && t.entry.any (some ·.runtimeSessionId = t.activeSessionId) then
    (t.entry.bind (·.turnCount)).getD 0 + 1
  else 1

def newEntry (t : SessionTurn) (result : RuntimeRunResult) : GatewaySessionEntry where
  key := t.turn.key
  runtimeSessionId := result.newSessionId
  turnCount := some t.nextTurnCount
  lastInputTokens := reportedInputTokens result

/-- What the end of the turn makes of the store. `replyText`: what the decision about the response and the changes of a guest have left of the reply. -/
def persist (t : SessionTurn) (result : RuntimeRunResult) (replyText : String) (entries : SessionEntries) :
    SessionEntries :=
  if t.activeSessionId.any (· ≠ "") && hasError policy result && replyText = "" then entries.delete t.turn.key
  else if result.newSessionId ≠ "" && !authFailed policy result then entries.put (t.newEntry result)
  else if t.activeSessionId.any (· ≠ "") && hasError policy result then entries.delete t.turn.key
  else entries

end SessionTurn

/-- A session was passed to the runtime of a turn, or its runtime returned it. -/
structure SessionUse where
  sessionId : String
  turn : Turn
  produced : Bool

/-- The store in memory and in its file, the turns of the process, and every use of a session so far. -/
structure Sessions where
  entries : SessionEntries := []
  file : SessionEntries := []
  turns : List SessionTurn := []
  uses : List SessionUse := []

/-- A step of one turn. `drop`: it fails, is superseded or runs out of time. -/
inductive TurnAction
  | rotate
  | call
  | answer (result : RuntimeRunResult)
  | retryFresh
  | retryTransient
  | persist (replyText : String)
  | drop

/-- A turn starts, goes on, the store is written to its file, or a new process loads it without the entries that are too old. -/
inductive SessionAction
  | start (turn : Turn)
  | turn (i : ℕ) (action : TurnAction)
  | flush
  | reload (pruned : List String)

namespace Sessions

variable (policy : SessionPolicy)

def setTurn (s : Sessions) (i : ℕ) (t : SessionTurn) : Sessions := { s with turns := s.turns.set i t }

/-- The runtime is called with the session of the turn. -/
def call (s : Sessions) (i : ℕ) (t : SessionTurn) (retried : Bool) : Sessions :=
  { s.setTurn i { t with stage := .running retried } with
    uses := s.uses ++ (t.activeSessionId.map fun sessionId => { sessionId, turn := t.turn, produced := false }).toList }

/-- The session is dropped, and the next call is to start a fresh one. -/
def forget (s : Sessions) (i : ℕ) (t : SessionTurn) : Sessions :=
  { s with entries := s.entries.delete t.turn.key }.setTurn i { t with activeSessionId := none }

/-- A runtime returns no session, the session it was given, or one that no runtime has had before. -/
def Returns (s : Sessions) (t : SessionTurn) (result : RuntimeRunResult) : Prop :=
  result.newSessionId = "" ∨ t.activeSessionId = some result.newSessionId ∨
    ∀ use ∈ s.uses, use.sessionId ≠ result.newSessionId
deriving Decidable

def start (s : Sessions) (turn : Turn) : Sessions :=
  let entry := s.entries.get turn.key
  { s with turns := s.turns ++ [{ turn, entry, activeSessionId := entry.map (·.runtimeSessionId) }] }

def answer (s : Sessions) (i : ℕ) (t : SessionTurn) (retried : Bool) (result : RuntimeRunResult) : Sessions :=
  { s.setTurn i { t with stage := .returned retried result } with
    uses := s.uses ++ (if result.newSessionId = "" then none
      else some { sessionId := result.newSessionId, turn := t.turn, produced := true }).toList }

def turnStep (s : Sessions) (i : ℕ) (t : SessionTurn) : TurnAction → Option Sessions
  | .rotate => if t.stage = .prepared ∧ t.rotates policy then some (s.forget i t) else none
  | .call => if t.stage = .prepared ∧ ¬t.rotates policy then some (s.call i t false) else none
  | .answer result =>
    match t.stage with
    | .running retried => if s.Returns t result then some (s.answer i t retried result) else none
    | _ => none
  | .retryFresh =>
    match t.stage with
    | .returned false result =>
      if t.shouldRetryFresh policy result then some ((s.forget i t).call i { t with activeSessionId := none } true)
      else none
    | _ => none
  | .retryTransient =>
    match t.stage with
    | .returned false result => if t.shouldRetryTransient policy result then some (s.call i t true) else none
    | _ => none
  | .persist replyText =>
    match t.stage with
    | .returned retried result =>
      if !retried && t.shouldRetryFresh policy result then none
      else some ({ s with entries := t.persist policy result replyText s.entries }.setTurn i { t with stage := .ended })
    | _ => none
  | .drop => some (s.setTurn i { t with stage := .ended })

def step (s : Sessions) : SessionAction → Option Sessions
  | .start turn => some (s.start turn)
  | .turn i action => s.turns[i]?.bind fun t => s.turnStep policy i t action
  | .flush => some { s with file := s.entries }
  | .reload pruned => some { s with entries := s.file.filter (·.key ∉ pruned), turns := [] }

/-- The scope of the turn whose runtime has returned a session last. -/
def lastProducer (s : Sessions) (sessionId : String) : Option SessionScope :=
  ((s.uses.filter fun use => use.produced && use.sessionId = sessionId).getLast?).map (·.turn.scope)

end Sessions

def sessionSystem (policy : SessionPolicy) : System Sessions SessionAction where
  step s action := s.step policy action

/-- A turn that starts is apart from every turn that has used a session. -/
def ApartFromUses (s : Sessions) : SessionAction → Prop
  | .start turn => ∀ use ∈ s.uses, Apart use.turn turn
  | _ => True

instance decidableApartFromUses : ∀ s, DecidablePred (ApartFromUses s) := fun _ _ => by
  unfold ApartFromUses
  split <;> infer_instance

end BotCord.Gateway
