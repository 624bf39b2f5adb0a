import BotCord.Gateway.Inbox

/-!
# What the channel acknowledges

An id that is in the cache of seen ids is there for a reason: its message cannot be normalized, a handler has accepted it, or the channel still holds it, in a drain or in a handoff that has not ended. So a message the channel meets again is a duplicate. The reason goes away when a handler ends without having called `accept`: `safeEmit` reports that as a success, and the id stays in the cache.
-/

namespace BotCord.Gateway

section

variable {sanitizeUntrustedContent : String → String} {options : ChannelOptions}

theorem normalizeInboxBatch_isSome {msgs : List InboxMessage} (hne : msgs ≠ [])
    (hmsgs : ∀ msg ∈ msgs, normalizeInbox sanitizeUntrustedContent options msg ≠ none) :
    ∃ message, normalizeInboxBatch sanitizeUntrustedContent options msgs = some message := by
  cases msgs with
  | nil => exact absurd rfl hne
  | cons first rest =>
    cases rest with
    | nil => exact Option.ne_none_iff_exists'.mp (hmsgs first List.mem_cons_self)
    | cons second more =>
      have hlatest : (second :: more).getLastD first ∈ second :: more := by
        rw [List.getLastD_eq_getLast?, List.getLast?_eq_some_getLast (List.cons_ne_nil _ _)]
        exact List.getLast_mem _
      obtain ⟨base, hbase⟩ := Option.ne_none_iff_exists'.mp (hmsgs _ (List.mem_cons_of_mem _ hlatest))
      exact ⟨_, Option.map_eq_some_iff.mpr ⟨base, hbase, rfl⟩⟩

theorem mem_handoffsOf {eligible : List InboxMessage} {msg : InboxMessage} (hmem : msg ∈ eligible)
    (heligible : ∀ m ∈ eligible, normalizeInbox sanitizeUntrustedContent options m ≠ none) :
    ∃ handoff ∈ Channel.handoffsOf sanitizeUntrustedContent options eligible, msg.hubMsgId ∈ handoff.hubIds := by
  obtain ⟨group, hgroup, hmsg⟩ := (mem_groupsOf options).mpr hmem
  have hnormal : ∀ m ∈ group.2, normalizeInbox sanitizeUntrustedContent options m ≠ none := fun m hm =>
    heligible m ((mem_groupsOf options).mp ⟨group, hgroup, hm⟩)
  obtain ⟨message, hmessage⟩ := normalizeInboxBatch_isSome (ne_nil_of_mem_groupsOf options eligible group hgroup) hnormal
  refine ⟨_, List.mem_filterMap.mpr ⟨group, hgroup, by rw [hmessage, Option.map_some]⟩, ?_⟩
  exact List.mem_map_of_mem hmsg

namespace Channel

variable (sanitizeUntrustedContent : String → String) (options : ChannelOptions)

/-- The Hub has returned a message with this id that has no normal form. -/
def Unnormalizable (c : Channel) (id : String) : Prop :=
  ∃ msg ∈ c.polled, msg.hubMsgId = id ∧ normalizeInbox sanitizeUntrustedContent options msg = none

/-- The handler of a batch with this id has called `accept`. -/
def Accepted (c : Channel) (id : String) : Prop :=
  ∃ handoff ∈ c.handoffs, id ∈ handoff.hubIds ∧ handoff.called = true

def Handled (c : Channel) (id : String) : Prop :=
  c.Unnormalizable sanitizeUntrustedContent options id ∨ c.Accepted id

/-- A drain has put the message aside, or its handoff is pending. -/
def Held (c : Channel) (id : String) : Prop :=
  id ∈ c.pendingHandoffMessages ∨ ∃ drain ∈ c.drains, ∃ msg ∈ drain.eligible, msg.hubMsgId = id

structure Settled (c : Channel) : Prop where
  acks : ∀ id ∈ c.acks, c.Handled sanitizeUntrustedContent options id
  seenMessages : ∀ id ∈ c.seenMessages, c.Handled sanitizeUntrustedContent options id ∨ c.Held id
  polled : ∀ drain ∈ c.drains, ∀ msg ∈ drain.msgs, msg ∈ c.polled
  eligible : ∀ drain ∈ c.drains, ∀ msg ∈ drain.eligible, normalizeInbox sanitizeUntrustedContent options msg ≠ none

variable {sanitizeUntrustedContent options} {c next : Channel} {id : String}

structure Extends (c next : Channel) : Prop where
  polled : c.polled ⊆ next.polled
  called : ∀ id, c.Accepted id → next.Accepted id

theorem Extends.handled (hext : c.Extends next) (h : c.Handled sanitizeUntrustedContent options id) :
    next.Handled sanitizeUntrustedContent options id := by
  rcases h with ⟨msg, hmsg, hid, hnone⟩ | h
  · exact Or.inl ⟨msg, hext.polled hmsg, hid, hnone⟩
  · exact Or.inr (hext.called id h)

variable {i : ℕ}

theorem accepted_set {handoff changed : Handoff} (hget : c.handoffs[i]? = some handoff)
    (hids : changed.hubIds = handoff.hubIds) (hcalled : handoff.called = true → changed.called = true)
    (h : c.Accepted id) : ∃ x ∈ c.handoffs.set i changed, id ∈ x.hubIds ∧ x.called = true := by
  obtain ⟨x, hx, hid, hxcalled⟩ := h
  obtain ⟨j, hj⟩ := List.mem_iff_getElem?.mp hx
  by_cases hij : i = j
  · subst hij
    obtain rfl : handoff = x := Option.some.inj (hget.symm.trans hj)
    have hlt : i < c.handoffs.length := (List.getElem?_eq_some_iff.mp hget).1
    exact ⟨changed, List.mem_set hlt changed, hids ▸ hid, hcalled hxcalled⟩
  · exact ⟨x, List.mem_of_getElem? (by rw [List.getElem?_set_ne hij, hj]), hid, hxcalled⟩

theorem settled_poll {msgs : List InboxMessage} (h : c.Settled sanitizeUntrustedContent options)
    (hnext : c.poll msgs = some next) : next.Settled sanitizeUntrustedContent options := by
  unfold poll at hnext
  split at hnext
  · obtain rfl := Option.some.inj hnext
    have hext : c.Extends { c with
        drains := c.drains ++ [{ loop := c.loop, msgs }], polled := c.polled ++ msgs } :=
      ⟨List.subset_append_left _ _, fun _ h => h⟩
    refine ⟨fun id hid => hext.handled (h.acks id hid), fun id hid => ?_, fun drain hdrain msg hmsg => ?_,
      fun drain hdrain => ?_⟩
    · refine (h.seenMessages id hid).imp hext.handled (Or.imp_right ?_)
      exact fun ⟨drain, hdrain, hheld⟩ => ⟨drain, List.mem_append_left _ hdrain, hheld⟩
    · rcases List.mem_append.mp hdrain with hdrain | hdrain
      · exact List.mem_append_left _ (h.polled drain hdrain msg hmsg)
      · rw [List.mem_singleton.mp hdrain] at hmsg
        exact List.mem_append_right _ hmsg
    · rcases List.mem_append.mp hdrain with hdrain | hdrain
      · exact h.eligible drain hdrain
      · rw [List.mem_singleton.mp hdrain]
        exact fun msg hmsg => absurd hmsg List.not_mem_nil
  · cases hnext

/-- A drain that has looked at its next message still holds what it held, and what it adds can be normalized. -/
theorem settled_setDrain {d : ℕ} {drain changed : Drain} (msg : InboxMessage)
    (h : c.Settled sanitizeUntrustedContent options) (hget : c.drains[d]? = some drain)
    (hmsgs : changed.msgs ⊆ drain.msgs) (hkeeps : drain.eligible ⊆ changed.eligible)
    (hadds : ∀ m ∈ changed.eligible, m ∈ drain.eligible ∨
      m = msg ∧ normalizeInbox sanitizeUntrustedContent options msg ≠ none) :
    (c.setDrain d changed).Settled sanitizeUntrustedContent options := by
  have hdrain : drain ∈ c.drains := List.mem_of_getElem? hget
  have hlt : d < c.drains.length := (List.getElem?_eq_some_iff.mp hget).1
  refine ⟨h.acks, fun id hid => (h.seenMessages id hid).imp_right (Or.imp_right ?_), fun other hother m hm => ?_,
    fun other hother m hm => ?_⟩
  · rintro ⟨other, hother, m, hm, hid⟩
    obtain ⟨j, hj⟩ := List.mem_iff_getElem?.mp hother
    by_cases hdj : d = j
    · subst hdj
      obtain rfl : drain = other := Option.some.inj (hget.symm.trans hj)
      exact ⟨changed, List.mem_set hlt changed, m, hkeeps hm, hid⟩
    · exact ⟨other, List.mem_of_getElem? ((List.getElem?_set_ne hdj).trans hj), m, hm, hid⟩
  · rcases List.mem_or_eq_of_mem_set hother with hother | rfl
    · exact h.polled other hother m hm
    · exact h.polled drain hdrain m (hmsgs hm)
  · rcases List.mem_or_eq_of_mem_set hother with hother | rfl
    · exact h.eligible other hother m hm
    · rcases hadds m hm with hm | ⟨rfl, hnormal⟩
      · exact h.eligible drain hdrain m hm
      · exact hnormal

theorem settled_ackMessages {ids : List String} (h : c.Settled sanitizeUntrustedContent options)
    (hids : ∀ id ∈ ids, c.Handled sanitizeUntrustedContent options id) :
    (c.ackMessages ids).Settled sanitizeUntrustedContent options := by
  refine ⟨fun id hid => ?_, h.seenMessages, h.polled, h.eligible⟩
  rcases List.mem_append.mp hid with hid | hid
  · exact h.acks id hid
  · exact hids id hid

theorem settled_remember {seenMessages : List String} {hubMsgId : String}
    (h : c.Settled sanitizeUntrustedContent options)
    (hseen : rememberSeen c.seenMessages hubMsgId = some seenMessages)
    (hid : c.Handled sanitizeUntrustedContent options hubMsgId ∨ c.Held hubMsgId) :
    { c with seenMessages }.Settled sanitizeUntrustedContent options := by
  refine ⟨h.acks, fun id hmem => ?_, h.polled, h.eligible⟩
  rcases mem_of_rememberSeen hseen hmem with hmem | rfl
  · exact h.seenMessages id hmem
  · exact hid

theorem settled_scan {d : ℕ} (h : c.Settled sanitizeUntrustedContent options) (hguard : AcceptsBeforeEnd c (.scan d))
    (hnext : c.scan sanitizeUntrustedContent options d = some next) : next.Settled sanitizeUntrustedContent options := by
  obtain ⟨drain, hget, hnext⟩ := Option.bind_eq_some_iff.mp hnext
  cases hmsgs : drain.msgs with
  | nil => rw [hmsgs] at hnext; cases hnext
  | cons msg rest =>
    rw [hmsgs] at hnext
    obtain rfl := Option.some.inj hnext
    have hsub : rest ⊆ drain.msgs := hmsgs ▸ List.subset_cons_self msg rest
    have hpolled : msg ∈ c.polled :=
      h.polled drain (List.mem_of_getElem? hget) msg (hmsgs ▸ List.mem_cons_self)
    have hskip : (c.setDrain d { drain with msgs := rest }).Settled sanitizeUntrustedContent options :=
      settled_setDrain msg h hget hsub (List.Subset.refl _) fun m hm => Or.inl hm
    unfold look
    split
    · exact hskip
    · rename_i hpending
      split
      · rename_i hseen
        -- a duplicate: neither pending nor put aside, so it has been handled
        refine settled_ackMessages hskip fun id hid => ?_
        rw [List.mem_singleton.mp hid]
        rcases h.seenMessages _ (mem_of_rememberSeen_none hseen) with hhandled | hheld | hheld
        · exact hhandled
        · exact absurd hheld hpending
        · obtain ⟨other, hother, held, hheld, hid⟩ := hheld
          exact absurd hid (hguard drain hget msg (by rw [hmsgs]; rfl) other hother held hheld)
      · rename_i seenMessages hseen
        split
        · rename_i hnone
          have hun : c.Handled sanitizeUntrustedContent options msg.hubMsgId := Or.inl ⟨msg, hpolled, rfl, hnone⟩
          refine settled_ackMessages (settled_remember hskip hseen (Or.inl hun)) fun id hid => ?_
          rwa [List.mem_singleton.mp hid]
        · rename_i hnormal
          refine settled_remember (settled_setDrain msg h hget hsub (List.subset_append_left _ _) ?_) hseen
            (Or.inr (Or.inr ?_))
          · intro m hm
            rcases List.mem_append.mp hm with hm | hm
            · exact Or.inl hm
            · exact Or.inr ⟨List.mem_singleton.mp hm, hnormal⟩
          · have hlt : d < c.drains.length := (List.getElem?_eq_some_iff.mp hget).1
            exact ⟨_, List.mem_set hlt _, msg, List.mem_append_right _ List.mem_cons_self, rfl⟩

theorem settled_handOff {d : ℕ} (h : c.Settled sanitizeUntrustedContent options)
    (hnext : c.handOff sanitizeUntrustedContent options d = some next) :
    next.Settled sanitizeUntrustedContent options := by
  obtain ⟨drain, hget, hnext⟩ := Option.bind_eq_some_iff.mp hnext
  split at hnext
  · obtain rfl := Option.some.inj hnext
    refine ⟨fun id hid => ?_, fun id hid => ?_, fun other hother => h.polled other (List.mem_of_mem_eraseIdx hother),
      fun other hother => h.eligible other (List.mem_of_mem_eraseIdx hother)⟩
    · exact (h.acks id hid).imp_right fun ⟨x, hx, hrest⟩ => ⟨x, List.mem_append_left _ hx, hrest⟩
    · rcases h.seenMessages id hid with hhandled | hpending | ⟨other, hother, m, hm, rfl⟩
      · exact Or.inl (hhandled.imp_right fun ⟨x, hx, hrest⟩ => ⟨x, List.mem_append_left _ hx, hrest⟩)
      · exact Or.inr (Or.inl (List.mem_append_left _ hpending))
      · refine Or.inr ?_
        obtain ⟨j, hj⟩ := List.mem_iff_getElem?.mp hother
        by_cases hdj : j = d
        · subst hdj
          obtain rfl : drain = other := Option.some.inj (hget.symm.trans hj)
          obtain ⟨handoff, hhandoff, hid⟩ := mem_handoffsOf hm (h.eligible drain hother)
          exact Or.inl (List.mem_append_right _ (List.mem_flatMap.mpr ⟨handoff, hhandoff, hid⟩))
        · exact Or.inr ⟨other, List.mem_eraseIdx_iff_getElem?.mpr ⟨j, hdj, hj⟩, m, hm, rfl⟩
  · cases hnext

variable {handoff : Handoff}

theorem settled_setHandoff (changed : Handoff) {pending : List String}
    (h : c.Settled sanitizeUntrustedContent options) (hget : c.handoffs[i]? = some handoff)
    (hids : changed.hubIds = handoff.hubIds) (hcalled : handoff.called = true → changed.called = true)
    (hpending : ∀ id ∈ c.pendingHandoffMessages, id ∈ pending ∨ changed.called = true ∧ id ∈ changed.hubIds) :
    { c with handoffs := c.handoffs.set i changed, pendingHandoffMessages := pending }.Settled
      sanitizeUntrustedContent options := by
  have hkeep : ∀ id, c.Handled sanitizeUntrustedContent options id →
      { c with handoffs := c.handoffs.set i changed, pendingHandoffMessages := pending }.Handled
        sanitizeUntrustedContent options id :=
    fun id hid => hid.imp_right (accepted_set hget hids hcalled)
  refine ⟨fun id hid => hkeep id (h.acks id hid), fun id hid => ?_, h.polled, h.eligible⟩
  rcases h.seenMessages id hid with hhandled | hpend | hheld
  · exact Or.inl (hkeep id hhandled)
  · rcases hpending id hpend with hpend | ⟨hchanged, hmem⟩
    · exact Or.inr (Or.inl hpend)
    · have hlt : i < c.handoffs.length := (List.getElem?_eq_some_iff.mp hget).1
      exact Or.inl (Or.inr ⟨changed, List.mem_set hlt changed, hmem, hchanged⟩)
  · exact Or.inr (Or.inr hheld)

theorem settled_markAccepted (h : c.Settled sanitizeUntrustedContent options)
    (hget : c.handoffs[i]? = some handoff) (hcalled : handoff.called = true) :
    (c.markAccepted i handoff).Settled sanitizeUntrustedContent options := by
  unfold markAccepted
  split
  · exact h
  · refine settled_setHandoff { handoff with accepted := true } h hget rfl id fun id hid => ?_
    by_cases hmem : id ∈ handoff.hubIds
    · exact Or.inr ⟨hcalled, hmem⟩
    · exact Or.inl (List.mem_filter.mpr ⟨hid, by simpa using hmem⟩)

/-- The handoff ends as a success, whatever the handler did: it must have accepted the batch. -/
theorem settled_afterEmit (h : c.Settled sanitizeUntrustedContent options)
    (hget : c.handoffs[i]? = some handoff) (hcalled : handoff.called = true) :
    (c.afterEmit i handoff false).Settled sanitizeUntrustedContent options := by
  have hlt : i < c.handoffs.length := (List.getElem?_eq_some_iff.mp hget).1
  have hended : { c with handoffs := c.handoffs.set i { handoff with phase := .ended } }.Settled
      sanitizeUntrustedContent options :=
    settled_setHandoff { handoff with phase := .ended } h hget rfl id fun id hid => Or.inl hid
  exact settled_markAccepted hended (List.getElem?_set_self hlt) hcalled

theorem settled_start (h : c.Settled sanitizeUntrustedContent options) (hguard : AcceptsBeforeEnd c (.start i))
    (hnext : c.start i = some next) : next.Settled sanitizeUntrustedContent options := by
  obtain ⟨handoff, hget, hnext⟩ := Option.bind_eq_some_iff.mp hnext
  split at hnext
  · rw [if_pos (hguard handoff hget)] at hnext
    obtain rfl := Option.some.inj hnext
    exact settled_setHandoff { handoff with phase := .handling } h hget rfl id fun id hid => Or.inl hid
  · cases hnext

theorem settled_accept (h : c.Settled sanitizeUntrustedContent options) (hnext : c.accept i = some next) :
    next.Settled sanitizeUntrustedContent options := by
  obtain ⟨handoff, hget, hnext⟩ := Option.bind_eq_some_iff.mp hnext
  split at hnext
  · cases hnext
  · obtain rfl := Option.some.inj hnext
    have hlt : i < c.handoffs.length := (List.getElem?_eq_some_iff.mp hget).1
    refine settled_ackMessages (settled_setHandoff { handoff with called := true } h hget rfl
      (fun _ => rfl) fun id hid => Or.inl hid) fun id hid => ?_
    exact Or.inr ⟨_, List.mem_set hlt _, hid, rfl⟩

theorem settled_answered (h : c.Settled sanitizeUntrustedContent options) (hnext : c.answered i = some next) :
    next.Settled sanitizeUntrustedContent options := by
  obtain ⟨handoff, hget, hnext⟩ := Option.bind_eq_some_iff.mp hnext
  split at hnext
  · rename_i hcalled
    obtain rfl := Option.some.inj hnext
    exact settled_markAccepted h hget hcalled
  · cases hnext

theorem settled_finish {threw : Bool} (h : c.Settled sanitizeUntrustedContent options)
    (hguard : AcceptsBeforeEnd c (.finish i threw)) (hnext : c.finish i threw = some next) :
    next.Settled sanitizeUntrustedContent options := by
  obtain ⟨handoff, hget, hnext⟩ := Option.bind_eq_some_iff.mp hnext
  split at hnext
  · obtain rfl := Option.some.inj hnext
    exact settled_afterEmit h hget (hguard handoff hget)
  · cases hnext

theorem settled_step {action : ChannelAction} (h : c.Settled sanitizeUntrustedContent options)
    (hguard : AcceptsBeforeEnd c action)
    (hnext : (channelSystem sanitizeUntrustedContent options).step c action = some next) :
    next.Settled sanitizeUntrustedContent options := by
  cases action with
  | restart =>
    obtain rfl := Option.some.inj hnext
    exact ⟨h.acks, h.seenMessages, h.polled, h.eligible⟩
  | poll msgs => exact settled_poll h hnext
  | scan d => exact settled_scan h hguard hnext
  | handOff d => exact settled_handOff h hnext
  | start i => exact settled_start h hguard hnext
  | accept i => exact settled_accept h hnext
  | answered i => exact settled_answered h hnext
  | finish i threw => exact settled_finish h hguard hnext

theorem settled_empty : ({} : Channel).Settled sanitizeUntrustedContent options := by
  refine ⟨?_, ?_, ?_, ?_⟩ <;> exact fun _ hmem => absurd hmem List.not_mem_nil

end Channel

/-- In every run in which a handler that ends has called `accept`, whatever is acknowledged has been handled. -/
theorem ackMessages_handled {actions : List ChannelAction} {c : Channel}
    (hmeets : (channelSystem sanitizeUntrustedContent options).Meets AcceptsBeforeEnd {} actions)
    (hrun : (channelSystem sanitizeUntrustedContent options).run {} actions = some c) :
    ∀ id ∈ c.acks, c.Handled sanitizeUntrustedContent options id := by
  have hsettled : Channel.Settled sanitizeUntrustedContent options c :=
    System.run_invariant_of_meets _ (fun _ _ _ h hguard hnext => Channel.settled_step h hguard hnext)
      Channel.settled_empty hmeets hrun
  exact hsettled.acks

end

def hello : InboxMessage :=
  { hubMsgId := "h_1", envelope := some { sender := "ag_1" }, text := some "hello", roomId := some "rm_1" }

/-- The handler accepts and returns, and the message the Hub returns again is acknowledged as a duplicate. -/
def acceptedThenReturned : List ChannelAction :=
  [.poll [hello], .scan 0, .handOff 0, .start 0, .accept 0, .finish 0 false, .answered 0, .poll [hello], .scan 0]

/-- The handler throws before it has accepted, the lease expires and the Hub returns the message again. -/
def thrownThenReturned : List ChannelAction :=
  [.poll [hello], .scan 0, .handOff 0, .start 0, .finish 0 true, .poll [hello], .scan 0]

def trialOptions : ChannelOptions := { channelId := "botcord", accountId := "ag_0" }

theorem ackMessages_handled_twice :
    ∃ c, (channelSystem id trialOptions).run {} acceptedThenReturned = some c ∧ c.acks = ["h_1", "h_1"] ∧
      ∀ hubMsgId ∈ c.acks, c.Handled id trialOptions hubMsgId :=
  ⟨_, rfl, by decide +kernel, ackMessages_handled
    (show (channelSystem id trialOptions).Meets AcceptsBeforeEnd {} acceptedThenReturned by decide +kernel) rfl⟩

/-- The message whose handler threw is acknowledged as a duplicate, although no handler has accepted it and it can be normalized. -/
theorem thrown_acknowledged :
    ∃ c, (channelSystem id trialOptions).run {} thrownThenReturned = some c ∧ "h_1" ∈ c.acks ∧
      ¬c.Handled id trialOptions "h_1" := by
  refine ⟨_, rfl, by decide +kernel, ?_⟩
  rintro (⟨msg, hmsg, -, hnone⟩ | ⟨handoff, hhandoff, -, hcalled⟩)
  · revert msg
    decide +kernel
  · revert handoff
    decide +kernel

end BotCord.Gateway
