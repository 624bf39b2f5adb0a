import BotCord.Foundation.Run
import BotCord.Gateway.Normalize
import Mathlib.Data.List.Induction

/-!
# Drains of the inbox

The BotCord channel between the Hub and the dispatcher: `drainInbox` polls messages, acknowledges the ones it will not hand on and queues the rest by conversation; `ChannelManager.safeEmit` calls the handler of the dispatcher and swallows what it throws. What the Hub returns to a poll, when a handler starts, calls `accept`, returns or throws, and when an acknowledgement is answered are choices of the run. Renewing a lease only tells the Hub when to return a message again, which a run may choose freely.
-/

namespace BotCord.Gateway

def SEEN_MESSAGES_CAP : ℕ := 500

/-- Deletes the id that was added first, unless it is the empty string. -/
def evictFirst : List String → List String
  | [] => []
  | first :: rest => if first = "" then first :: rest else rest

/-- `rememberSeen`: `none` is the answer `false`, for an id that is in the cache. -/
def rememberSeen (seenMessages : List String) (hubMsgId : String) : Option (List String) :=
  if hubMsgId ∈ seenMessages then none
  else if SEEN_MESSAGES_CAP < (seenMessages ++ [hubMsgId]).length then
    some (evictFirst (seenMessages ++ [hubMsgId]))
  else some (seenMessages ++ [hubMsgId])

theorem mem_of_mem_evictFirst {id : String} {ids : List String} (h : id ∈ evictFirst ids) : id ∈ ids := by
  cases ids with
  | nil => exact h
  | cons first rest =>
    rw [evictFirst] at h
    split at h
    · exact h
    · exact List.mem_cons_of_mem _ h

theorem mem_of_rememberSeen {seen next : List String} {hubMsgId id : String}
    (hnext : rememberSeen seen hubMsgId = some next) (h : id ∈ next) : id ∈ seen ∨ id = hubMsgId := by
  have hmem : id ∈ seen ++ [hubMsgId] := by
    unfold rememberSeen at hnext
    split at hnext
    · cases hnext
    · split at hnext
      · rw [← Option.some.inj hnext] at h
        exact mem_of_mem_evictFirst h
      · rwa [← Option.some.inj hnext] at h
  simpa using hmem

theorem mem_of_rememberSeen_none {seen : List String} {hubMsgId : String}
    (h : rememberSeen seen hubMsgId = none) : hubMsgId ∈ seen := by
  unfold rememberSeen at h
  by_contra hnew
  rw [if_neg hnew] at h
  split at h <;> cases h

def inboxGroupKey (options : ChannelOptions) (msg : InboxMessage) : String :=
  options.channelId ++ ":" ++ options.accountId ++ ":" ++ msg.roomId.getD "" ++ ":" ++
    (msg.topicId.or msg.topic).getD ""

/-- Adds a message to the group of its key, or opens that group after the others. -/
def addToGroup (key : String) (msg : InboxMessage) :
    List (String × List InboxMessage) → List (String × List InboxMessage)
  | [] => [(key, [msg])]
  | group :: rest =>
    if group.1 = key then (group.1, group.2 ++ [msg]) :: rest else group :: addToGroup key msg rest

def groupsOf (options : ChannelOptions) (eligible : List InboxMessage) : List (String × List InboxMessage) :=
  eligible.foldl (fun groups msg => addToGroup (inboxGroupKey options msg) msg groups) []

theorem mem_addToGroup {key : String} {msg m : InboxMessage} {groups : List (String × List InboxMessage)} :
    (∃ group ∈ addToGroup key msg groups, m ∈ group.2) ↔ m = msg ∨ ∃ group ∈ groups, m ∈ group.2 := by
  induction groups with
  | nil => simp [addToGroup]
  | cons group rest ih =>
    rw [addToGroup]
    split
    · simp only [List.mem_cons, exists_eq_or_imp, List.mem_append, List.not_mem_nil, or_false]
      tauto
    · simp only [List.mem_cons, exists_eq_or_imp, ih]
      tauto

theorem ne_nil_of_mem_addToGroup {key : String} {msg : InboxMessage} {groups : List (String × List InboxMessage)}
    (hgroups : ∀ group ∈ groups, group.2 ≠ []) : ∀ group ∈ addToGroup key msg groups, group.2 ≠ [] := by
  induction groups with
  | nil => simp [addToGroup]
  | cons group rest ih =>
    have hrest := ih fun g hg => hgroups g (List.mem_cons_of_mem _ hg)
    rw [addToGroup]
    split
    · simpa using fun key msgs hg => hgroups (key, msgs) (List.mem_cons_of_mem _ hg)
    · exact List.forall_mem_cons.mpr ⟨hgroups group List.mem_cons_self, hrest⟩

theorem mem_groupsOf (options : ChannelOptions) {m : InboxMessage} {eligible : List InboxMessage} :
    (∃ group ∈ groupsOf options eligible, m ∈ group.2) ↔ m ∈ eligible := by
  induction eligible using List.reverseRecOn with
  | nil => simp [groupsOf]
  | append_singleton front msg ih =>
    rw [groupsOf, List.foldl_concat]
    refine mem_addToGroup.trans ?_
    rw [← groupsOf, ih]
    simp [or_comm]

theorem ne_nil_of_mem_groupsOf (options : ChannelOptions) (eligible : List InboxMessage) :
    ∀ group ∈ groupsOf options eligible, group.2 ≠ [] := by
  induction eligible using List.reverseRecOn with
  | nil => simp [groupsOf]
  | append_singleton front msg ih =>
    rw [groupsOf, List.foldl_concat]
    exact ne_nil_of_mem_addToGroup ih

/-- A call of `drainInbox` by one of the loops of the channel, with the messages it has yet to look at. -/
structure Drain where
  loop : ℕ
  msgs : List InboxMessage
  eligible : List InboxMessage := []

inductive HandoffPhase
  | queued | handling | ended
deriving DecidableEq

/-- A group that a drain has queued. `called`: its handler has called `accept`. -/
structure Handoff where
  groupKey : String
  hubIds : List String
  message : GatewayInboundMessage
  phase : HandoffPhase := .queued
  called : Bool := false
  accepted : Bool := false

/-- The sets of the channel and its drains and handoffs. `polled` are the messages the Hub has returned and `acks` the ids `ackMessages` was called with. -/
structure Channel where
  loop : ℕ := 0
  seenMessages : List String := []
  pendingHandoffMessages : List String := []
  drains : List Drain := []
  handoffs : List Handoff := []
  polled : List InboxMessage := []
  acks : List String := []

namespace Channel

variable (sanitizeUntrustedContent : String → String) (options : ChannelOptions)

/-- A poll of the Hub. A loop that is draining keeps the next trigger for later. -/
def poll (c : Channel) (msgs : List InboxMessage) : Option Channel :=
  if ∀ drain ∈ c.drains, drain.loop ≠ c.loop then
    some { c with drains := c.drains ++ [{ loop := c.loop, msgs }], polled := c.polled ++ msgs }
  else none

def ackMessages (c : Channel) (hubMsgIds : List String) : Channel := { c with acks := c.acks ++ hubMsgIds }

def setDrain (c : Channel) (d : ℕ) (drain : Drain) : Channel := { c with drains := c.drains.set d drain }

/-- One round of the first pass of `drainInbox`. -/
def look (c : Channel) (d : ℕ) (drain : Drain) (msg : InboxMessage) (rest : List InboxMessage) : Channel :=
  if msg.hubMsgId ∈ c.pendingHandoffMessages then c.setDrain d { drain with msgs := rest }
  else match rememberSeen c.seenMessages msg.hubMsgId with
    | none => (c.setDrain d { drain with msgs := rest }).ackMessages [msg.hubMsgId]
    | some seenMessages =>
      if normalizeInbox sanitizeUntrustedContent options msg = none then
        ({ c with seenMessages }.setDrain d { drain with msgs := rest }).ackMessages [msg.hubMsgId]
      else { c with seenMessages }.setDrain d { drain with msgs := rest, eligible := drain.eligible ++ [msg] }

def scan (c : Channel) (d : ℕ) : Option Channel :=
  c.drains[d]?.bind fun drain => match drain.msgs with
    | [] => none
    | msg :: rest => some (c.look sanitizeUntrustedContent options d drain msg rest)

/-- The handoffs of a drain that has looked at every message: one for each group. -/
def handoffsOf (eligible : List InboxMessage) : List Handoff :=
  (groupsOf options eligible).filterMap fun group =>
    (normalizeInboxBatch sanitizeUntrustedContent options group.2).map fun message =>
      { groupKey := group.1, hubIds := group.2.map (·.hubMsgId), message }

def handOff (c : Channel) (d : ℕ) : Option Channel :=
  c.drains[d]?.bind fun drain =>
    if drain.msgs = [] then
      some { c with
        drains := c.drains.eraseIdx d
        handoffs := c.handoffs ++ handoffsOf sanitizeUntrustedContent options drain.eligible
        pendingHandoffMessages := c.pendingHandoffMessages ++
          (handoffsOf sanitizeUntrustedContent options drain.eligible).flatMap (·.hubIds) }
    else none

/-- `markAccepted`, of which only the first call does anything. -/
def markAccepted (c : Channel) (i : ℕ) (handoff : Handoff) : Channel :=
  if handoff.accepted then c
  else { c with
    handoffs := c.handoffs.set i { handoff with accepted := true }
    pendingHandoffMessages := c.pendingHandoffMessages.filter (· ∉ handoff.hubIds) }

def forgetSeen (c : Channel) (hubIds : List String) : Channel :=
  { c with
    seenMessages := c.seenMessages.filter (· ∉ hubIds)
    pendingHandoffMessages := c.pendingHandoffMessages.filter (· ∉ hubIds) }

/-- Whether the promise of `safeEmit` rejects when the handler throws: it logs the error and returns. -/
def safeEmitRejects (_threw : Bool) : Bool := false

/-- What a queued handoff does once `emit` has settled. -/
def afterEmit (c : Channel) (i : ℕ) (handoff : Handoff) (rejected : Bool) : Channel :=
  let ended := { handoff with phase := .ended }
  let closed := { c with handoffs := c.handoffs.set i ended }
  if rejected then if handoff.accepted then closed else closed.forgetSeen handoff.hubIds
  else closed.markAccepted i ended

/-- The test of `safeEmit`: an envelope that fails it is dropped. -/
def wellFormed (message : GatewayInboundMessage) : Bool := message.id ≠ "" && message.channel ≠ ""

/-- A handoff starts when the ones queued before it under its key have ended. -/
def start (c : Channel) (i : ℕ) : Option Channel :=
  c.handoffs[i]?.bind fun handoff =>
    if handoff.phase = .queued ∧
        ∀ earlier ∈ c.handoffs.take i, earlier.groupKey = handoff.groupKey → earlier.phase = .ended then
      some (if wellFormed handoff.message then
          { c with handoffs := c.handoffs.set i { handoff with phase := .handling } }
        else c.afterEmit i handoff false)
    else none

/-- The handler calls `accept`, which acknowledges the whole batch. -/
def accept (c : Channel) (i : ℕ) : Option Channel :=
  c.handoffs[i]?.bind fun handoff =>
    if handoff.phase = .queued then none
    else some ({ c with handoffs := c.handoffs.set i { handoff with called := true } }.ackMessages handoff.hubIds)

/-- The Hub has answered the acknowledgement of `accept`, or the call has failed: the same either way. -/
def answered (c : Channel) (i : ℕ) : Option Channel :=
  c.handoffs[i]?.bind fun handoff => if handoff.called then some (c.markAccepted i handoff) else none

/-- The handler returns or throws. -/
def finish (c : Channel) (i : ℕ) (threw : Bool) : Option Channel :=
  c.handoffs[i]?.bind fun handoff =>
    if handoff.phase = .handling then some (c.afterEmit i handoff (safeEmitRejects threw)) else none

end Channel

inductive ChannelAction
  | restart
  | poll (msgs : List InboxMessage)
  | scan (d : ℕ)
  | handOff (d : ℕ)
  | start (i : ℕ)
  | accept (i : ℕ)
  | answered (i : ℕ)
  | finish (i : ℕ) (threw : Bool)

section

variable (sanitizeUntrustedContent : String → String) (options : ChannelOptions)

/-- The channel as a transition system. A restart leaves the drain of the loop before it running. -/
def channelSystem : System Channel ChannelAction where
  step c action := match action with
    | .restart => some { c with loop := c.loop + 1 }
    | .poll msgs => c.poll msgs
    | .scan d => c.scan sanitizeUntrustedContent options d
    | .handOff d => c.handOff sanitizeUntrustedContent options d
    | .start i => c.start i
    | .accept i => c.accept i
    | .answered i => c.answered i
    | .finish i threw => c.finish i threw

/-- No loop looks at a message that a drain in progress has put aside, no dropped envelope is handed off, and a handler that ends has called `accept`. -/
def AcceptsBeforeEnd (c : Channel) : ChannelAction → Prop
  | .scan d => ∀ drain ∈ c.drains[d]?, ∀ msg ∈ drain.msgs.head?, ∀ other ∈ c.drains, ∀ held ∈ other.eligible,
      held.hubMsgId ≠ msg.hubMsgId
  | .start i => ∀ handoff ∈ c.handoffs[i]?, Channel.wellFormed handoff.message = true
  | .finish i _ => ∀ handoff ∈ c.handoffs[i]?, handoff.called = true
  | _ => True

instance decidableAcceptsBeforeEnd : ∀ c, DecidablePred (AcceptsBeforeEnd c) := fun _ _ => by
  unfold AcceptsBeforeEnd
  split <;> infer_instance

end

end BotCord.Gateway
