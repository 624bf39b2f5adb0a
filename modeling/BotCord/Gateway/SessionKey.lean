import BotCord.Foundation.Text
import BotCord.Gateway.Execution

/-!
# Keys of runtime sessions

`sessionKey` puts up to seven parts into one text without escaping any of them. Two turns have the same key although they differ exactly if a part of one goes on where the same part of the other ends, with the very text the other one has after it.
-/

namespace BotCord.Gateway

structure SessionKeyInput where
  runtime : String
  channel : String
  accountId : String
  conversationKind : ConversationKind
  conversationId : String
  threadId : Option String
  executionScope : Option String

def ConversationKind.text : ConversationKind → String
  | .direct => "direct"
  | .group => "group"

def sessionKey (input : SessionKeyInput) : String :=
  let base := input.runtime ++ ":" ++ input.channel ++ ":" ++ input.accountId ++ ":" ++ input.conversationKind.text ++
    ":" ++ input.conversationId
  let withThread := match input.threadId.filter (· ≠ "") with
    | some thread => base ++ ":" ++ thread
    | none => base
  match input.executionScope.filter (· ≠ "") with
  | some scope => withThread ++ "#" ++ scope
  | none => withThread

/-- A call of `runTurn`, as far as its session depends on it. -/
structure Turn where
  msg : GatewayInboundMessage
  route : GatewayRoute
  channel : ChannelAdapter

namespace Turn

def execution (turn : Turn) : TurnExecution :=
  resolveTurnExecution turn.msg turn.route (isBotCordChannel turn.channel)

/-- `grant`: none for a turn with the default profile. -/
def grant (turn : Turn) : Option TurnAccessGrant :=
  match turn.execution with
  | .default => none
  | .restricted grant => grant
  | .collaborator grant => some grant
  | .refused _ grant => grant

def restricted (turn : Turn) : Bool := turn.execution ≠ .default

def executionScope (turn : Turn) : Option String :=
  match turn.grant with
  | some grant => some ("grant:" ++ grant.grantId)
  | none => if turn.restricted then some "restricted" else none

def keyInput (turn : Turn) : SessionKeyInput where
  runtime := turn.route.runtime
  channel := turn.msg.channel
  accountId := turn.msg.accountId
  conversationKind := turn.msg.conversation.kind
  conversationId := turn.msg.conversation.id
  threadId := turn.msg.conversation.threadId
  executionScope := turn.executionScope

def key (turn : Turn) : String := sessionKey turn.keyInput

end Turn

/-- Whose trust a turn runs with: the owner's, nobody's, or that of a grant. -/
inductive ExecutionScope
  | owner
  | restricted
  | grant (grantId : String)
deriving DecidableEq

/-- The runtime, the place of the conversation and the trust of a turn. A thread without a name is no thread. -/
structure SessionScope where
  runtime : String
  channel : String
  accountId : String
  conversationKind : ConversationKind
  conversationId : String
  thread : Option String
  execution : ExecutionScope
deriving DecidableEq

def Turn.scope (turn : Turn) : SessionScope where
  runtime := turn.route.runtime
  channel := turn.msg.channel
  accountId := turn.msg.accountId
  conversationKind := turn.msg.conversation.kind
  conversationId := turn.msg.conversation.id
  thread := turn.msg.conversation.threadId.filter (· ≠ "")
  execution := match turn.grant with
    | some grant => .grant grant.grantId
    | none => if turn.restricted then .restricted else .owner

def optionalPart (mark : Char) (text : Option String) : List Char :=
  (text.filter (· ≠ "")).elim [] fun t => mark :: t.toList

def keyParts (input : SessionKeyInput) : List (List Char) :=
  [input.runtime.toList, ':' :: input.channel.toList, ':' :: input.accountId.toList,
    ':' :: input.conversationKind.text.toList, ':' :: input.conversationId.toList, optionalPart ':' input.threadId,
    optionalPart '#' input.executionScope]

theorem sessionKey_toList (input : SessionKeyInput) : (sessionKey input).toList = (keyParts input).flatten := by
  unfold sessionKey keyParts optionalPart
  cases input.threadId.filter (· ≠ "") <;> cases input.executionScope.filter (· ≠ "") <;>
    simp [String.toList_append]

/-- Neither turn has a part that goes on where that of the other ends, with what the other has after it. -/
def Apart (a b : Turn) : Prop :=
  ¬Text.Overlaps (keyParts a.keyInput) (keyParts b.keyInput) ∧ ¬Text.Overlaps (keyParts b.keyInput) (keyParts a.keyInput)
deriving Decidable

theorem optionalPart_inj {mark : Char} {a b : Option String} (h : optionalPart mark a = optionalPart mark b) :
    a.filter (· ≠ "") = b.filter (· ≠ "") := by
  unfold optionalPart at h
  generalize a.filter (· ≠ "") = x at h ⊢
  generalize b.filter (· ≠ "") = y at h ⊢
  cases x with
  | none =>
    cases y with
    | none => rfl
    | some t => cases h
  | some s =>
    cases y with
    | none => cases h
    | some t => rw [String.toList_inj.mp (List.cons.inj h).2]

theorem kindText_inj {a b : ConversationKind} (h : a.text = b.text) : a = b := by
  cases a <;> cases b
  · rfl
  · exact absurd h (by decide)
  · exact absurd h (by decide)
  · rfl

def ExecutionScope.text : ExecutionScope → Option String
  | .owner => none
  | .restricted => some "restricted"
  | .grant grantId => some ("grant:" ++ grantId)

theorem ExecutionScope.text_inj {a b : ExecutionScope} (h : a.text = b.text) : a = b := by
  have hother : ∀ g : String, "grant:" ++ g ≠ "restricted" := fun g hsame => by
    have := congrArg String.toList hsame
    simp [String.toList_append] at this
  cases a with
  | owner => cases b <;> first | rfl | cases h
  | restricted =>
    cases b with
    | owner => cases h
    | restricted => rfl
    | grant g => exact absurd (Option.some.inj h).symm (hother g)
  | grant g =>
    cases b with
    | owner => cases h
    | restricted => exact absurd (Option.some.inj h) (hother g)
    | grant g' => rw [String.append_right_inj "grant:" |>.mp (Option.some.inj h)]

theorem ExecutionScope.filter_text (scope : ExecutionScope) : scope.text.filter (· ≠ "") = scope.text := by
  cases scope with
  | owner => rfl
  | restricted => rfl
  | grant g =>
    have hne : "grant:" ++ g ≠ "" := fun hempty => by
      have := congrArg String.toList hempty
      simp [String.toList_append] at this
    exact Option.filter_eq_some_iff.mpr ⟨rfl, decide_eq_true hne⟩

theorem executionScope_eq (turn : Turn) : turn.executionScope = turn.scope.execution.text := by
  unfold Turn.executionScope Turn.scope
  cases turn.grant with
  | some grant => rfl
  | none => cases turn.restricted <;> rfl

theorem scope_of_keyParts {a b : Turn} (h : keyParts a.keyInput = keyParts b.keyInput) : a.scope = b.scope := by
  unfold keyParts at h
  simp only [List.cons.injEq, true_and, and_true, String.toList_inj] at h
  obtain ⟨hruntime, hchannel, haccount, hkind, hconversation, hthread, hexecution⟩ := h
  have hscope := optionalPart_inj hexecution
  simp only [Turn.keyInput, executionScope_eq, ExecutionScope.filter_text] at hscope
  have hscope := ExecutionScope.text_inj hscope
  unfold Turn.scope at hscope ⊢
  simp only [SessionScope.mk.injEq]
  exact ⟨hruntime, hchannel, haccount, kindText_inj hkind, hconversation,
    optionalPart_inj hthread, hscope⟩

/-- Turns with the same key have the same scope, unless a part of one runs on into the other. -/
theorem scope_eq_of_key {a b : Turn} (hapart : Apart a b) (h : a.key = b.key) : a.scope = b.scope := by
  have hflat : (keyParts a.keyInput).flatten = (keyParts b.keyInput).flatten := by
    rw [← sessionKey_toList, ← sessionKey_toList]
    exact congrArg String.toList h
  rcases (Text.flatten_eq_iff (by rfl)).mp hflat with hparts | hover | hover
  · exact scope_of_keyParts hparts
  · exact absurd hover hapart.1
  · exact absurd hover hapart.2

end BotCord.Gateway
