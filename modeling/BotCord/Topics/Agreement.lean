import BotCord.Topics.Hub
import Mathlib.Data.Finset.Card

/-!
# Topics agree with their messages

A call writes the count and the status that it has computed from what it read, and a message that is sent again is counted although nothing is stored; an update that lets a topic expire leaves it without the time of its end. Where messages are new, what a call writes is still as it was read and an open topic is not set to expired, everything agrees.
-/

namespace BotCord.Topics

open Delivery (column)

def Store.messages (s : Store) (topicId : TopicId) : Finset MsgId :=
  ((s.records.filter (·.topicId = some topicId)).map (·.msgId)).toFinset

def Topic.Closed (t : Topic) : Prop := t.closedAt.isSome ↔ t.status.Terminated

structure Store.Agrees (s : Store) : Prop where
  one : ∀ t ∈ s.topics, ∀ u ∈ s.topics, t.roomId = u.roomId → t.title = u.title → t = u
  count : ∀ t ∈ s.topics, t.messageCount = (s.messages t.topicId).card
  closed : ∀ t ∈ s.topics, t.Closed

def Topic.SameStatus (t u : Topic) : Prop := t.status = u.status ∧ t.closedAt = u.closedAt
deriving Decidable

/-- No record has the id. -/
def Store.Fresh (s : Store) (msgId : MsgId) : Prop := ∀ r ∈ s.records, r.msgId ≠ msgId
deriving Decidable

/-- A call carries a goal for a topic of which it has read how it ended. A message is stored for the first time. -/
def Call.NewGoal (s : Store) (t : Topic) : Call → Prop
  | .checked .. => False
  | .send request _ loaded =>
    (truthy request.goal).isSome ∧ s.Fresh request.msgId ∧ ∃ read ∈ loaded, read.topicId = t.topicId ∧ read.SameStatus t
  | .receipt .. => False
  | .update loaded _ body => (truthy body.goal.join).isSome ∧ loaded.topicId = t.topicId ∧ loaded.SameStatus t

/-- A topic that has ended is opened by nothing but a new goal. -/
def Reopened (d : Hub) (a : Action) (d' : Hub) : Prop :=
  ∀ t ∈ d.store.topics, ∀ u ∈ d'.store.topics, t.topicId = u.topicId → t.status.Terminated → u.status = .opened →
    ∃ i call, a = .next i ∧ d.calls i = some call ∧ call.NewGoal d.store t

def Topic.Stays (t : Topic) (type : MessageType) (goal : Option String) : Prop :=
  ¬ (t.status.Terminated ∧ (truthy goal).isSome) ∧ (t.status = .opened → type ≠ .result ∧ type ≠ .error)
deriving Decidable

def Store.CountRead (s : Store) (loaded : Topic) : Prop :=
  ∀ row ∈ s.topics, row.topicId = loaded.topicId → row.messageCount = loaded.messageCount
deriving Decidable

def Store.StatusRead (s : Store) (loaded : Topic) : Prop :=
  ∀ row ∈ s.topics, row.topicId = loaded.topicId → row.SameStatus loaded
deriving Decidable

/-- What a call finds when it commits. -/
def Store.Meets (s : Store) : Call → Prop
  | .checked .. => True
  | .send request _ none => request.topic.isSome → s.Fresh request.msgId
  | .send request _ (some loaded) =>
    s.Fresh request.msgId ∧ s.CountRead loaded ∧ (loaded.Stays request.type request.goal ∨ s.StatusRead loaded)
  | .receipt receipt _ original loaded =>
    (∃ x ∈ s.records, x.msgId = receipt.msgId ∧ x.receiverId = original.senderId) ∨ original.topicId = none ∨
      s.Fresh receipt.msgId ∧ ∃ topic ∈ loaded, topic.status = .opened ∧ s.CountRead topic ∧ s.StatusRead topic
  | .update loaded _ body =>
    ∀ status ∈ body.status.join, status = loaded.status ∨
      s.StatusRead loaded ∧ ¬ (loaded.status = .opened ∧ status = .expired)

/-- The condition on a step. -/
def Hub.Orderly (d : Hub) : Action → Prop
  | .next i => ∀ call ∈ d.calls i, d.store.Meets call
  | _ => True

instance (s : Store) : DecidablePred s.Meets := fun _ => by
  unfold Store.Meets
  split <;> infer_instance

instance (d : Hub) : DecidablePred d.Orderly := fun _ => by
  unfold Hub.Orderly
  split <;> infer_instance

/-! ### Topics -/

section

variable {t loaded changed row : Topic} {type : MessageType} {now : Instant} {goal : Option String}

theorem column_same {α : Type} [DecidableEq α] {loaded value current : α} (h : value = loaded) :
    column loaded value current = current := if_pos h.symm

theorem column_read {α : Type} [DecidableEq α] {loaded value current : α} (h : current = loaded) :
    column loaded value current = value := by
  unfold column
  split
  · rename_i heq
    exact h.trans heq
  · rfl

namespace Topic

theorem SameStatus.closed (h : t.SameStatus row) (hclosed : row.Closed) : t.Closed := by
  unfold Closed
  rw [h.1, h.2]
  exact hclosed

theorem save_same (h : changed.SameStatus loaded) : (loaded.save changed row).SameStatus row :=
  ⟨column_same h.1, column_same h.2⟩

theorem save_read (h : row.SameStatus loaded) : (loaded.save changed row).SameStatus changed :=
  ⟨column_read h.1, column_read h.2⟩

theorem save_count (h : row.messageCount = loaded.messageCount) :
    (loaded.save changed row).messageCount = changed.messageCount := column_read h

theorem close_of_not_opened (h : t.status ≠ .opened) : t.close type now = t := if_neg h

theorem closed_close (h : t.Closed) : (t.close type now).Closed := by
  unfold close
  split
  · cases type with
    | message => exact h
    | ack => exact h
    | result => simp [Closed, TopicStatus.Terminated]
    | error => simp [Closed, TopicStatus.Terminated]
  · exact h

theorem closed_receive (h : t.Closed) : (t.receive type now goal).Closed := by
  have hreopen : (t.reopen goal).Closed := by
    unfold reopen
    split
    · simp [Closed, TopicStatus.Terminated]
    · exact h
  have hclosed : ((t.reopen goal).close type now).Closed := closed_close hreopen
  exact hclosed

theorem closed_receipt (h : t.Closed) : (t.receipt type now).Closed := by
  unfold receipt
  split
  · have hclosed : (t.close type now).Closed := closed_close h
    exact hclosed
  · exact h

theorem count_receive : (t.receive type now goal).messageCount = t.messageCount + 1 := rfl

theorem count_receipt (h : t.status = .opened) : (t.receipt type now).messageCount = t.messageCount + 1 := by
  rw [receipt, if_pos h]

theorem update_count {body : UpdateTopicRequest} (h : loaded.update now body = some changed) :
    changed.messageCount = loaded.messageCount := by
  simp only [update] at h
  split at h
  · cases h
    split <;> rfl
  · split at h
    · obtain ⟨goal, -, rfl⟩ := Option.map_eq_some_iff.mp h
      rfl
    · split at h <;> cases h <;> rfl

theorem receive_stays (h : t.Stays type goal) : (t.receive type now goal).SameStatus t := by
  have hsame : t.reopen goal = t := if_neg h.1
  rw [receive, hsame]
  by_cases hopened : t.status = .opened
  · obtain ⟨hresult, herror⟩ := h.2 hopened
    cases type with
    | message => simp [close, SameStatus]
    | ack => simp [close, SameStatus]
    | result => exact absurd rfl hresult
    | error => exact absurd rfl herror
  · rw [close_of_not_opened hopened]
    exact ⟨rfl, rfl⟩

theorem goal_of_receive (hended : t.status.Terminated) (hopened : (t.receive type now goal).status = .opened) :
    (truthy goal).isSome := by
  by_contra hgoal
  have hnot : t.status ≠ .opened := by
    intro h
    rw [h] at hended
    simp [TopicStatus.Terminated] at hended
  have hsame : t.reopen goal = t := if_neg fun h => hgoal h.2
  rw [receive, hsame, close_of_not_opened hnot] at hopened
  exact hnot hopened

theorem update_status {body : UpdateTopicRequest} (h : loaded.update now body = some changed) :
    (body.status.join = none ∧ changed.SameStatus loaded) ∨
      ∃ status ∈ body.status.join, changed.status = status ∧
        (status = loaded.status → changed.SameStatus loaded) ∧
        (loaded.Closed → ¬ (loaded.status = .opened ∧ status = .expired) → changed.Closed) ∧
        (loaded.status.Terminated → status = .opened → (truthy body.goal.join).isSome) := by
  simp only [update] at h
  split at h
  · rename_i hnone
    refine .inl ⟨hnone, ?_⟩
    cases h
    split
    · exact ⟨rfl, rfl⟩
    · exact ⟨rfl, rfl⟩
  · rename_i status hstatus
    refine .inr ⟨status, hstatus, ?_⟩
    split at h
    · rename_i hopen
      obtain ⟨goal, hgoal, rfl⟩ := Option.map_eq_some_iff.mp h
      refine ⟨rfl, fun heq => ?_, fun _ _ => ?_, fun _ _ => Option.isSome_of_eq_some hgoal⟩
      · have hended := hopen.1
        rw [← heq, hopen.2] at hended
        simp [TopicStatus.Terminated] at hended
      · simp [Closed, hopen.2, TopicStatus.Terminated]
    · rename_i hopen
      split at h
      · rename_i hclose
        cases h
        refine ⟨rfl, fun heq => ?_, fun _ _ => ?_, fun hended hopened => absurd ⟨hended, hopened⟩ hopen⟩
        · rcases hclose.2 with hdone | hdone <;> exact absurd (hclose.1.symm.trans (heq.symm.trans hdone)) (by decide)
        · rcases hclose.2 with rfl | rfl <;> simp [Closed, TopicStatus.Terminated]
      · rename_i hclose
        cases h
        refine ⟨rfl, fun heq => ⟨heq, rfl⟩, fun hclosed hexpired => ?_, fun hended hopened =>
          absurd ⟨hended, hopened⟩ hopen⟩
        show loaded.closedAt.isSome ↔ status.Terminated
        rw [show loaded.closedAt.isSome ↔ loaded.status.Terminated from hclosed]
        cases hloaded : loaded.status <;> cases status <;> simp_all [TopicStatus.Terminated]

end Topic

end

/-! ### What is stored -/

section

variable {s s' s'' : Store} {m : MsgId} {topicId : Option TopicId} {id : TopicId} {request : SendRequest}
  {loaded changed t : Topic}

theorem mem_messages : m ∈ s.messages id ↔ ∃ r ∈ s.records, r.topicId = some id ∧ r.msgId = m := by
  simp [Store.messages, and_assoc]

structure Stores (s : Store) (m : MsgId) (topicId : Option TopicId) (s' : Store) : Prop where
  topics : s'.topics = s.topics
  old : ∀ r ∈ s.records, r ∈ s'.records
  new : ∀ r ∈ s'.records, r ∈ s.records ∨ r.msgId = m ∧ r.topicId = topicId

namespace Stores

theorem refl : Stores s m topicId s := ⟨rfl, fun _ h => h, fun _ h => .inl h⟩

theorem trans (h : Stores s m topicId s') (h' : Stores s' m topicId s'') : Stores s m topicId s'' where
  topics := h'.topics.trans h.topics
  old r hr := h'.old r (h.old r hr)
  new r hr := (h'.new r hr).elim (h.new r) .inr

theorem messages_of_ne (h : Stores s m topicId s') (hne : topicId ≠ some id) : s'.messages id = s.messages id := by
  ext x
  rw [mem_messages, mem_messages]
  constructor
  · rintro ⟨r, hr, htopic, hx⟩
    rcases h.new r hr with hr | hr
    · exact ⟨r, hr, htopic, hx⟩
    · exact absurd (hr.2.symm.trans htopic) hne
  · rintro ⟨r, hr, hx⟩
    exact ⟨r, h.old r hr, hx⟩

theorem messages (h : Stores s m (some id) s') (hstored : ∃ r ∈ s'.records, r.msgId = m ∧ r.topicId = some id) :
    s'.messages id = insert m (s.messages id) := by
  ext x
  rw [Finset.mem_insert, mem_messages, mem_messages]
  constructor
  · rintro ⟨r, hr, htopic, rfl⟩
    exact (h.new r hr).elim (fun hr => .inr ⟨r, hr, htopic, rfl⟩) fun hr => .inl hr.1
  · rintro (rfl | ⟨r, hr, hx⟩)
    · obtain ⟨r, hr, hmsg, htopic⟩ := hstored
      exact ⟨r, hr, htopic, hmsg⟩
    · exact ⟨r, h.old r hr, hx⟩

theorem card (h : Stores s m (some id) s') (hfresh : s.Fresh m)
    (hstored : ∃ r ∈ s'.records, r.msgId = m ∧ r.topicId = some id) :
    (s'.messages id).card = (s.messages id).card + 1 := by
  rw [h.messages hstored, Finset.card_insert_of_notMem]
  intro hmem
  obtain ⟨r, hr, -, hx⟩ := mem_messages.mp hmem
  exact hfresh r hr hx

end Stores

theorem stores_insertRecord (r : MessageRecord) : Stores s r.msgId r.topicId (s.insertRecord r) := by
  unfold Store.insertRecord
  split
  · exact .refl
  · refine ⟨rfl, fun x hx => List.mem_append_left _ hx, fun x hx => ?_⟩
    rcases List.mem_append.mp hx with hx | hx
    · exact .inl hx
    · cases List.mem_singleton.mp hx
      exact .inr ⟨rfl, rfl⟩

theorem mem_insertRecord {r : MessageRecord}
    (h : ¬ ∃ x ∈ s.records, x.msgId = r.msgId ∧ x.receiverId = r.receiverId) : r ∈ (s.insertRecord r).records := by
  rw [Store.insertRecord, if_neg h]
  exact List.mem_append_right _ (List.mem_singleton_self r)

theorem stores_fold (receivers : List AgentId) :
    Stores s request.msgId topicId
      (receivers.foldl (fun s receiverId => s.insertRecord (request.record topicId receiverId)) s) := by
  induction receivers generalizing s with
  | nil => exact .refl
  | cons receiverId rest ih => exact (stores_insertRecord (request.record topicId receiverId)).trans ih

theorem stores_fanOut : Stores s request.msgId topicId (s.fanOut request topicId) := stores_fold _

theorem stored_fanOut (hfresh : s.Fresh request.msgId) :
    ∃ r ∈ (s.fanOut request topicId).records, r.msgId = request.msgId ∧ r.topicId = topicId := by
  unfold Store.fanOut
  obtain ⟨receiverId, rest, hreceivers⟩ : ∃ receiverId rest,
      (if request.receivers = [] then [request.senderId] else request.receivers) = receiverId :: rest := by
    split
    · exact ⟨_, _, rfl⟩
    · rename_i hsome
      exact List.exists_cons_of_ne_nil hsome
  rw [hreceivers, List.foldl_cons]
  refine ⟨_, (stores_fold rest).old _ (mem_insertRecord ?_), rfl, rfl⟩
  rintro ⟨x, hx, hmsg, -⟩
  exact hfresh x hx hmsg

/-! ### Topics in their table -/

theorem insertTopic_eq_some (h : s.insertTopic t = some s') :
    ¬ s.Taken t.topicId t.roomId t.title ∧ s.topics.Adds t s'.topics ∧ s'.records = s.records := by
  obtain ⟨hfree, h⟩ := Option.ite_none_left_eq_some.mp h
  obtain ⟨topics, hinsert, rfl⟩ := Option.map_eq_some_iff.mp h
  exact ⟨hfree, Keyed.insert?_eq_some hinsert, rfl⟩

theorem saveTopic_eq_some (h : s.saveTopic loaded changed = some s') :
    (∀ row ∈ s.topics, row.topicId = loaded.topicId →
      ¬ s.Taken row.topicId row.roomId (loaded.save changed row).title) ∧
    s'.records = s.records ∧ ∀ u ∈ s'.topics, ∃ row ∈ s.topics,
      (if row.topicId = loaded.topicId then loaded.save changed row else row) = u := by
  obtain ⟨hfree, h⟩ := Option.ite_none_left_eq_some.mp h
  cases h
  refine ⟨fun row hrow hid htaken => hfree ⟨row, hrow, hid, htaken⟩, rfl, fun u hu => ?_⟩
  exact (Keyed.mem_modify (loaded.topicId_save changed)).mp hu

theorem saveTopic_keeps (h : s.saveTopic loaded changed = some s') (hid : ∃ t ∈ s.topics, t.topicId = id) :
    ∃ t ∈ s'.topics, t.topicId = id := by
  obtain ⟨-, h⟩ := Option.ite_none_left_eq_some.mp h
  cases h
  obtain ⟨t, ht, rfl⟩ := hid
  refine ⟨_, Keyed.mem_modify_of_mem (loaded.topicId_save changed) ht, ?_⟩
  split <;> rfl

namespace Store.Agrees

theorem insert (h : s.Agrees) (hinsert : s.insertTopic t = some s') (hclosed : t.Closed)
    (hsame : s''.topics = s'.topics) (hcount : t.messageCount = (s''.messages t.topicId).card)
    (hold : ∀ u ∈ s.topics, s''.messages u.topicId = s.messages u.topicId) : s''.Agrees := by
  obtain ⟨hfree, hadds, -⟩ := insertTopic_eq_some hinsert
  have hmem : ∀ u, u ∈ s''.topics ↔ u ∈ s.topics ∨ u = t := fun u => hsame ▸ hadds.mem_iff
  refine ⟨fun u hu v hv hroom htitle => ?_, fun u hu => ?_, fun u hu => ?_⟩
  · rcases (hmem u).mp hu with hu | rfl <;> rcases (hmem v).mp hv with hv | rfl
    · exact h.one u hu v hv hroom htitle
    · exact absurd ⟨u, hu, hadds.new u hu, hroom, htitle⟩ hfree
    · exact absurd ⟨v, hv, hadds.new v hv, hroom.symm, htitle.symm⟩ hfree
    · rfl
  · rcases (hmem u).mp hu with hu | rfl
    · rw [hold u hu]
      exact h.count u hu
    · exact hcount
  · rcases (hmem u).mp hu with hu | rfl
    · exact h.closed u hu
    · exact hclosed

theorem save (h : s.Agrees) (hsave : s.saveTopic loaded changed = some s') (hsame : s''.topics = s'.topics)
    (hother : ∀ u ∈ s.topics, u.topicId ≠ loaded.topicId → s''.messages u.topicId = s.messages u.topicId)
    (hrow : ∀ row ∈ s.topics, row.topicId = loaded.topicId →
      (loaded.save changed row).messageCount = (s''.messages loaded.topicId).card ∧ (loaded.save changed row).Closed) :
    s''.Agrees := by
  obtain ⟨hfree, -, hmem⟩ := saveTopic_eq_some hsave
  rw [← hsame] at hmem
  refine ⟨fun u hu v hv hroom htitle => ?_, fun u hu => ?_, fun u hu => ?_⟩
  · obtain ⟨x, hx, rfl⟩ := hmem u hu
    obtain ⟨y, hy, rfl⟩ := hmem v hv
    by_cases hxid : x.topicId = loaded.topicId <;> by_cases hyid : y.topicId = loaded.topicId
    · cases Keyed.eq_of_key hx hy (hxid.trans hyid.symm)
      rfl
    · rw [if_pos hxid, if_neg hyid] at hroom htitle
      refine absurd ⟨y, hy, fun heq => hyid (heq.trans hxid), hroom.symm, htitle.symm⟩ (hfree x hx hxid)
    · rw [if_neg hxid, if_pos hyid] at hroom htitle
      refine absurd ⟨x, hx, fun heq => hxid (heq.trans hyid), hroom, htitle⟩ (hfree y hy hyid)
    · rw [if_neg hxid, if_neg hyid] at hroom htitle ⊢
      exact h.one x hx y hy hroom htitle
  · obtain ⟨x, hx, rfl⟩ := hmem u hu
    split
    · rename_i hid
      show _ = (s''.messages x.topicId).card
      rw [hid]
      exact (hrow x hx hid).1
    · rename_i hid
      rw [hother x hx hid]
      exact h.count x hx
  · obtain ⟨x, hx, rfl⟩ := hmem u hu
    split
    · rename_i hid
      exact (hrow x hx hid).2
    · exact h.closed x hx

theorem store (h : s.Agrees) (hstores : Stores s m none s') : s'.Agrees where
  one := by
    rw [hstores.topics]
    exact h.one
  count t ht := by
    rw [hstores.messages_of_ne (by simp)]
    exact h.count t (hstores.topics ▸ ht)
  closed := by
    rw [hstores.topics]
    exact h.closed

end Store.Agrees

theorem messages_congr (h : s'.records = s.records) : s'.messages id = s.messages id := by
  rw [Store.messages, Store.messages, h]

end

/-! ### Steps -/

def Store.Has (s : Store) (topicId : TopicId) : Prop := ∃ t ∈ s.topics, t.topicId = topicId

def Call.Held (s : Store) : Call → Prop
  | .checked .. => True
  | .send _ _ loaded => ∀ t ∈ loaded, s.Has t.topicId
  | .receipt _ _ original loaded =>
    (∀ id ∈ original.topicId, s.Has id) ∧ ∀ t ∈ loaded, original.topicId = some t.topicId
  | .update loaded changed body => ∃ now, loaded.update now body = some changed

structure Leaves (s s' : Store) : Prop where
  agrees : s'.Agrees
  filed : ∀ r ∈ s'.records, ∀ id ∈ r.topicId, s'.Has id
  keeps : ∀ id, s.Has id → s'.Has id

structure Inv (d : Hub) : Prop where
  agrees : d.store.Agrees
  filed : ∀ r ∈ d.store.records, ∀ id ∈ r.topicId, d.store.Has id
  calls : ∀ i call, d.calls i = some call → call.Held d.store

theorem Call.Held.mono {s s' : Store} {call : Call} (h : call.Held s) (hkeeps : ∀ id, s.Has id → s'.Has id) :
    call.Held s' := by
  cases call with
  | checked request now => trivial
  | send request now loaded => exact fun t ht => hkeeps _ (h t ht)
  | receipt receipt now original loaded => exact ⟨fun id hid => hkeeps id (h.1 id hid), h.2⟩
  | update loaded changed body => exact h

section

variable {d d' : Hub} {i : ℕ} {a : Action} {s s' s'' : Store} {request : SendRequest} {now : Instant}
  {t loaded changed : Topic} {m : MsgId} {id : TopicId}

theorem Leaves.refl (h : Inv d) : Leaves d.store d.store := ⟨h.agrees, h.filed, fun _ h => h⟩

theorem messages_of_not (hfiled : ∀ r ∈ s.records, ∀ id ∈ r.topicId, s.Has id) (hnot : ¬ s.Has id) : s.messages id = ∅ := by
  rw [Finset.eq_empty_iff_forall_notMem]
  intro x hx
  obtain ⟨r, hr, htopic, -⟩ := mem_messages.mp hx
  exact hnot (hfiled r hr id htopic)

theorem has_insertTopic (h : s.insertTopic t = some s') (id : TopicId) : s'.Has id ↔ s.Has id ∨ id = t.topicId := by
  have hmem := fun u => (insertTopic_eq_some h).2.1.mem_iff (x := u)
  constructor
  · rintro ⟨u, hu, rfl⟩
    rcases (hmem u).mp hu with hu | rfl
    · exact .inl ⟨u, hu, rfl⟩
    · exact .inr rfl
  · rintro (⟨u, hu, rfl⟩ | rfl)
    · exact ⟨u, (hmem u).mpr (.inl hu), rfl⟩
    · exact ⟨t, (hmem t).mpr (.inr rfl), rfl⟩

theorem not_has_insertTopic (h : s.insertTopic t = some s') : ¬ s.Has t.topicId := by
  rintro ⟨u, hu, heq⟩
  exact (insertTopic_eq_some h).2.1.new u hu heq

theorem filed_stores (hfiled : ∀ r ∈ s.records, ∀ id ∈ r.topicId, s'.Has id) {topicId : Option TopicId}
    (hrecords : s'.records = s.records) (hstores : Stores s' m topicId s'') (hhas : ∀ id ∈ topicId, s'.Has id) :
    ∀ r ∈ s''.records, ∀ id ∈ r.topicId, s''.Has id := by
  intro r hr id hid
  unfold Store.Has
  rw [hstores.topics]
  rcases hstores.new r hr with hr | hr
  · exact hfiled r (hrecords ▸ hr) id hid
  · exact hhas id (hr.2 ▸ hid)

theorem leaves_insert (h : Inv d) (hinsert : d.store.insertTopic t = some s') (hclosed : t.Closed)
    (hstores : Stores s' m (some t.topicId) s'') (hcount : t.messageCount = (s''.messages t.topicId).card) :
    Leaves d.store s'' := by
  have hrecords := (insertTopic_eq_some hinsert).2.2
  have hhas := has_insertTopic hinsert
  refine ⟨h.agrees.insert hinsert hclosed hstores.topics hcount fun u hu => ?_, ?_, fun id hid => ?_⟩
  · have hne : some t.topicId ≠ some u.topicId := fun heq =>
      not_has_insertTopic hinsert ⟨u, hu, (Option.some.inj heq).symm⟩
    rw [hstores.messages_of_ne hne, messages_congr hrecords]
  · refine filed_stores (fun r hr id hid => (hhas id).mpr (.inl (h.filed r hr id hid))) hrecords hstores fun id hid => ?_
    exact (hhas id).mpr (.inr (Option.some.inj hid).symm)
  · unfold Store.Has
    rw [hstores.topics]
    exact (hhas id).mpr (.inl hid)

theorem leaves_save (h : Inv d) (hsave : d.store.saveTopic loaded changed = some s')
    (hstores : Stores s' m (some loaded.topicId) s'') (hhas : s''.records = s'.records ∨ d.store.Has loaded.topicId)
    (hrow : ∀ row ∈ d.store.topics, row.topicId = loaded.topicId →
      (loaded.save changed row).messageCount = (s''.messages loaded.topicId).card ∧ (loaded.save changed row).Closed) :
    Leaves d.store s'' := by
  have hrecords := (saveTopic_eq_some hsave).2.1
  have hkeeps : ∀ id, (∃ t ∈ d.store.topics, t.topicId = id) → ∃ t ∈ s'.topics, t.topicId = id :=
    fun _ => saveTopic_keeps hsave
  refine ⟨h.agrees.save hsave hstores.topics (fun u hu hne => ?_) hrow, ?_, fun id hid => ?_⟩
  · rw [hstores.messages_of_ne fun heq => hne (Option.some.inj heq).symm, messages_congr hrecords]
  · rcases hhas with hsame | hhas
    · intro r hr id hid
      unfold Store.Has
      rw [hstores.topics]
      exact hkeeps id (h.filed r (hrecords ▸ hsame ▸ hr) id hid)
    · refine filed_stores (fun r hr id hid => hkeeps id (h.filed r hr id hid)) hrecords hstores fun id hid => ?_
      exact Option.some.inj hid ▸ hkeeps _ hhas
  · unfold Store.Has
    rw [hstores.topics]
    exact hkeeps id hid

theorem leaves_store (h : Inv d) (hstores : Stores d.store m none s') : Leaves d.store s' := by
  refine ⟨h.agrees.store hstores, filed_stores h.filed rfl hstores fun id hid => (by cases hid), fun id hid => ?_⟩
  unfold Store.Has
  rw [hstores.topics]
  exact hid

/-- The topics that have ended and that a call leaves open are those for which it carries a goal. -/
def Call.Opens (call : Call) (s s' : Store) : Prop :=
  ∀ t ∈ s.topics, ∀ u ∈ s'.topics, t.topicId = u.topicId → t.status.Terminated → u.status = .opened → call.NewGoal s t

theorem TopicStatus.Terminated.ne {s : TopicStatus} (h : s.Terminated) : s ≠ .opened := by
  rintro rfl
  simp [Terminated] at h

variable {call : Call}

theorem opens_same (hsame : s'.topics = s.topics) : call.Opens s s' := by
  intro t ht u hu hid hended hopened
  cases Keyed.eq_of_key ht (hsame ▸ hu) hid
  exact absurd hopened hended.ne

theorem eq_of_insert {x u : Topic} (h : s.insertTopic t = some s') (hx : x ∈ s.topics) (hu : u ∈ s'.topics)
    (hid : x.topicId = u.topicId) : x = u := by
  rcases (insertTopic_eq_some h).2.1.mem_iff.mp hu with hu | rfl
  · exact Keyed.eq_of_key hx hu hid
  · exact absurd ⟨x, hx, hid⟩ (not_has_insertTopic h)

theorem opens_insert (h : s.insertTopic t = some s') (hsame : s''.topics = s'.topics) : call.Opens s s'' := by
  intro x hx u hu hid hended hopened
  cases eq_of_insert h hx (hsame ▸ hu) hid
  exact absurd hopened hended.ne

theorem opens_save (h : s.saveTopic loaded changed = some s') (hsame : s''.topics = s'.topics)
    (hrow : ∀ t ∈ s.topics, t.topicId = loaded.topicId → t.status.Terminated →
      (loaded.save changed t).status = .opened → call.NewGoal s t) : call.Opens s s'' := by
  intro t ht u hu hid hended hopened
  obtain ⟨x, hx, rfl⟩ := (saveTopic_eq_some h).2.2 u (hsame ▸ hu)
  have hkey : (if x.topicId = loaded.topicId then loaded.save changed x else x).topicId = x.topicId := by
    split <;> rfl
  cases Keyed.eq_of_key ht hx (hid.trans hkey)
  split at hopened
  · rename_i hloaded
    exact hrow t ht hloaded hended hopened
  · exact absurd hopened hended.ne

theorem not_opened_save (hstays : changed.SameStatus loaded) (hended : t.status.Terminated) :
    (loaded.save changed t).status ≠ .opened :=
  fun hopened => hended.ne ((Topic.save_same hstays).1.symm.trans hopened)

/-! ### Commits -/

theorem Inv.finish (h : Inv d) (hleaves : Leaves d.store s') : Inv (d.finish i s') := by
  refine ⟨hleaves.agrees, hleaves.filed, fun j call hj => ?_⟩
  rcases eq_or_ne j i with rfl | hne
  · cases (Function.update_self ..).symm.trans hj
  · exact (h.calls j call ((Function.update_of_ne hne ..).symm.trans hj)).mono hleaves.keeps

theorem Inv.proceed (h : Inv d) {call : Call} (hheld : call.Held d.store) : Inv (d.proceed i call) := by
  refine ⟨h.agrees, h.filed, fun j call' hj => ?_⟩
  rcases eq_or_ne j i with rfl | hne
  · cases (Function.update_self ..).symm.trans hj
    exact hheld
  · exact h.calls j call' ((Function.update_of_ne hne ..).symm.trans hj)

theorem held_findTopic (request : SendRequest) :
    Call.Held s (.send request now (request.topic.bind (s.findTopic request.roomId))) := by
  intro t ht
  obtain ⟨title, -, ht⟩ := Option.bind_eq_some_iff.mp ht
  exact ⟨t, List.mem_of_find?_eq_some ht, rfl⟩

theorem closed_save (h : Inv d) (ht : t ∈ d.store.topics) (hid : t.topicId = loaded.topicId)
    (hread : changed.SameStatus loaded ∨ d.store.StatusRead loaded ∧ (loaded.Closed → changed.Closed)) :
    (loaded.save changed t).Closed := by
  have hclosed := h.agrees.closed t ht
  rcases hread with hsame | ⟨hread, hchanged⟩
  · exact (Topic.save_same hsame).closed hclosed
  · have hsame := hread t ht hid
    exact (Topic.save_read hsame).closed (hchanged (Topic.SameStatus.closed ⟨hsame.1.symm, hsame.2.symm⟩ hclosed))

theorem count_save (h : Inv d) (hsave : d.store.saveTopic loaded changed = some s')
    (hstores : Stores s' m (some loaded.topicId) s'') (hfresh : d.store.Fresh m)
    (hstored : ∃ r ∈ s''.records, r.msgId = m ∧ r.topicId = some loaded.topicId)
    (hread : d.store.CountRead loaded) (hcount : changed.messageCount = loaded.messageCount + 1)
    (ht : t ∈ d.store.topics) (hid : t.topicId = loaded.topicId) :
    (loaded.save changed t).messageCount = (s''.messages loaded.topicId).card := by
  have hrecords := (saveTopic_eq_some hsave).2.1
  have hfresh' : s'.Fresh m := fun r hr => hfresh r (hrecords ▸ hr)
  calc (loaded.save changed t).messageCount
      = t.messageCount + 1 := by rw [Topic.save_count (hread t ht hid), hcount, hread t ht hid]
    _ = (d.store.messages loaded.topicId).card + 1 := by rw [h.agrees.count t ht, hid]
    _ = (s''.messages loaded.topicId).card := by rw [hstores.card hfresh' hstored, messages_congr hrecords]

theorem commit_send_new (h : Inv d) (hmeets : d.store.Meets (.send request now none)) :
    Inv (d.commitSend i request now none) ∧
      (Call.send request now none).Opens d.store (d.commitSend i request now none).store := by
  unfold Hub.commitSend
  cases htopic : request.topic with
  | none =>
    exact ⟨h.finish (leaves_store h stores_fanOut), opens_same stores_fanOut.topics⟩
  | some title =>
    dsimp only
    split
    · rename_i s' hinsert
      have hfresh := hmeets (Option.isSome_of_eq_some htopic)
      have hrecords := (insertTopic_eq_some hinsert).2.2
      have hfresh' : s'.Fresh request.msgId := fun r hr => hfresh r (hrecords ▸ hr)
      refine ⟨h.finish (leaves_insert h hinsert (by simp [Topic.Closed, TopicStatus.Terminated]) stores_fanOut ?_),
        opens_insert hinsert stores_fanOut.topics⟩
      rw [stores_fanOut.card hfresh' (stored_fanOut hfresh'), messages_congr hrecords,
        messages_of_not h.filed (not_has_insertTopic hinsert)]
      rfl
    · split
      · rename_i topic hfound
        refine ⟨h.proceed ?_, opens_same rfl⟩
        rintro t ⟨⟩
        exact ⟨topic, List.mem_of_find?_eq_some hfound, rfl⟩
      · exact ⟨h.finish (.refl h), opens_same rfl⟩

theorem commit_send (h : Inv d) (hheld : d.store.Has loaded.topicId)
    (hmeets : d.store.Meets (.send request now (some loaded))) :
    Inv (d.commitSend i request now (some loaded)) ∧
      (Call.send request now (some loaded)).Opens d.store (d.commitSend i request now (some loaded)).store := by
  obtain ⟨hfresh, hcount, hstatus⟩ := hmeets
  unfold Hub.commitSend
  dsimp only
  split
  · rename_i s' hsave
    have hrecords := (saveTopic_eq_some hsave).2.1
    have hfresh' : s'.Fresh request.msgId := fun r hr => hfresh r (hrecords ▸ hr)
    refine ⟨h.finish (leaves_save h hsave stores_fanOut (.inr hheld) fun row hrow hid => ⟨?_, ?_⟩),
      opens_save hsave stores_fanOut.topics fun t ht hid hended hopened => ?_⟩
    · exact count_save h hsave stores_fanOut hfresh (stored_fanOut hfresh') hcount Topic.count_receive hrow hid
    · exact closed_save h hrow hid (hstatus.imp Topic.receive_stays fun hread => ⟨hread, Topic.closed_receive⟩)
    · rcases hstatus with hstays | hread
      · exact absurd hopened (not_opened_save (Topic.receive_stays hstays) hended)
      · have hsame := hread t ht hid
        have hgoal := Topic.goal_of_receive (hsame.1 ▸ hended) ((Topic.save_read hsame).1.symm.trans hopened)
        exact ⟨hgoal, hfresh, loaded, rfl, hid.symm, hsame.1.symm, hsame.2.symm⟩
  · exact ⟨h.finish (.refl h), opens_same rfl⟩

theorem commit_receipt (h : Inv d) {receipt : Receipt} {original : MessageRecord} {loaded : Option Topic}
    (hheld : Call.Held d.store (.receipt receipt now original loaded))
    (hmeets : d.store.Meets (.receipt receipt now original loaded)) :
    Inv (d.commitReceipt i receipt now original loaded) ∧
      (Call.receipt receipt now original loaded).Opens d.store (d.commitReceipt i receipt now original loaded).store := by
  unfold Hub.commitReceipt
  split
  · exact ⟨h.finish (.refl h), opens_same rfl⟩
  · rename_i hnew
    rcases hmeets with hdup | hnone | ⟨hfresh, topic, htopic, hopen, hcount, hread⟩
    · exact absurd hdup hnew
    · have hloaded : loaded = none := by
        cases hloaded : loaded with
        | none => rfl
        | some t => cases hnone.symm.trans (hheld.2 t hloaded)
      subst hloaded
      have hstores := stores_insertRecord (s := d.store)
        { msgId := receipt.msgId, senderId := receipt.sender, receiverId := original.senderId, roomId := original.roomId,
          topicId := original.topicId }
      simp only [hnone] at hstores ⊢
      exact ⟨h.finish (leaves_store h hstores), opens_same hstores.topics⟩
    · cases htopic
      have hid := hheld.2 topic rfl
      dsimp only
      split
      · rename_i s' hsave
        have hrecords := (saveTopic_eq_some hsave).2.1
        have hstores := stores_insertRecord (s := s')
          { msgId := receipt.msgId, senderId := receipt.sender, receiverId := original.senderId,
            roomId := original.roomId, topicId := original.topicId }
        have hstored := mem_insertRecord (s := s')
          (r := { msgId := receipt.msgId, senderId := receipt.sender, receiverId := original.senderId,
                  roomId := original.roomId, topicId := original.topicId }) (hrecords ▸ hnew)
        simp only [hid] at hstores hstored ⊢
        refine ⟨h.finish (leaves_save h hsave hstores (.inr (hheld.1 _ hid)) fun row hrow hkey => ⟨?_, ?_⟩),
          opens_save hsave hstores.topics fun t ht hkey hended hopened => ?_⟩
        · exact count_save h hsave hstores hfresh ⟨_, hstored, rfl, rfl⟩ hcount (Topic.count_receipt hopen) hrow hkey
        · exact closed_save h hrow hkey (.inr ⟨hread, Topic.closed_receipt⟩)
        · exact absurd ((hread t ht hkey).1.trans hopen) hended.ne
      · exact ⟨h.finish (.refl h), opens_same rfl⟩

theorem commit_update (h : Inv d) {body : UpdateTopicRequest} (hupdate : loaded.update now body = some changed)
    (hmeets : d.store.Meets (.update loaded changed body)) :
    Inv (d.finish i ((d.store.saveTopic loaded changed).getD d.store)) ∧
      (Call.update loaded changed body).Opens d.store ((d.store.saveTopic loaded changed).getD d.store) := by
  cases hsave : d.store.saveTopic loaded changed with
  | none => exact ⟨h.finish (.refl h), opens_same rfl⟩
  | some s' =>
    have hstatus : changed.SameStatus loaded ∨ d.store.StatusRead loaded ∧ (loaded.Closed → changed.Closed) ∧
        (loaded.status.Terminated → changed.status = .opened → (truthy body.goal.join).isSome) := by
      rcases Topic.update_status hupdate with ⟨-, hsame⟩ | ⟨status, hmem, rfl, hsame, hclosed, hgoal⟩
      · exact .inl hsame
      · exact (hmeets _ hmem).imp hsame fun hread => ⟨hread.1, fun h => hclosed h hread.2, hgoal⟩
    have hcount := Topic.update_count hupdate
    have hrecords := (saveTopic_eq_some hsave).2.1
    rw [Option.getD_some]
    refine ⟨h.finish (leaves_save (m := "") h hsave .refl (.inl rfl) fun row hrow hid => ⟨?_, ?_⟩),
      opens_save hsave rfl fun t ht hid hended hopened => ?_⟩
    · rw [messages_congr hrecords, ← hid, ← h.agrees.count row hrow]
      exact column_same hcount
    · exact closed_save h hrow hid (hstatus.imp_right fun hread => ⟨hread.1, hread.2.1⟩)
    · rcases hstatus with hsame | ⟨hread, -, hgoal⟩
      · exact absurd hopened (not_opened_save hsame hended)
      · have hsame := hread t ht hid
        have hgoal := hgoal (hsame.1 ▸ hended) ((Topic.save_read hsame).1.symm.trans hopened)
        exact ⟨hgoal, hid.symm, hsame.1.symm, hsame.2.symm⟩

theorem commit_step (h : Inv d) {call : Call} (hcall : d.calls i = some call) (hmeets : d.store.Meets call) :
    Inv (d.commit i call) ∧ call.Opens d.store (d.commit i call).store := by
  have hheld := h.calls i call hcall
  cases call with
  | checked request now => exact ⟨h.proceed (held_findTopic request), opens_same rfl⟩
  | send request now loaded =>
    cases loaded with
    | none => exact commit_send_new h hmeets
    | some loaded => exact commit_send h (hheld loaded rfl) hmeets
  | receipt receipt now original loaded => exact commit_receipt h hheld hmeets
  | update loaded changed body =>
    obtain ⟨now, hupdate⟩ := hheld
    exact commit_update h hupdate hmeets

theorem Inv.begin (h : Inv d) {call : Call} (hheld : call.Held d.store) (hbegin : d.begin i call = some d') :
    Inv d' ∧ d'.store = d.store := by
  obtain ⟨-, hbegin⟩ := Option.ite_none_right_eq_some.mp hbegin
  cases hbegin
  exact ⟨h.proceed hheld, rfl⟩

theorem Inv.remember (h : Inv d) (worker : ℕ) (roomId : RoomId) (agentId : AgentId) (hash : Option String) :
    Inv (d.remember worker roomId agentId hash) := ⟨h.agrees, h.filed, h.calls⟩

theorem Inv.checkDuplicateContent (h : Inv d) {worker : ℕ} (hcheck : d.checkDuplicateContent worker request = some d') :
    Inv d' ∧ d'.store = d.store := by
  unfold Hub.checkDuplicateContent at hcheck
  split at hcheck
  · cases hcheck
    exact ⟨h, rfl⟩
  · obtain ⟨-, hcheck⟩ := Option.ite_none_left_eq_some.mp hcheck
    cases hcheck
    exact ⟨h.remember .., rfl⟩

theorem reopened_same (hsame : d'.store.topics = d.store.topics) : Reopened d a d' := by
  intro t ht u hu hid hended hopened
  cases Keyed.eq_of_key ht (hsame ▸ hu) hid
  exact absurd hopened hended.ne

theorem step_agrees (h : Inv d) (hmeets : d.Orderly a) (hstep : hub.step d a = some d') : Inv d' ∧ Reopened d a d' := by
  cases a with
  | sendRoomMessage i worker request now =>
    obtain ⟨d₁, hcheck, hbegin⟩ := Option.bind_eq_some_iff.mp hstep
    obtain ⟨hinv, hsame⟩ := h.checkDuplicateContent hcheck
    have hheld : Call.Held d₁.store (.checked request now) := trivial
    obtain ⟨hinv', hsame'⟩ := hinv.begin hheld hbegin
    exact ⟨hinv', reopened_same (congrArg Store.topics (hsame'.trans hsame))⟩
  | receiveReceipt i receipt now =>
    simp only [hub] at hstep
    split at hstep
    · cases hstep
    · split at hstep
      · cases hstep
      · rename_i original hfound
        have horiginal := List.mem_of_find?_eq_some hfound
        have hheld : Call.Held d.store (.receipt receipt now original (d.receiptTopic receipt original)) := by
          refine ⟨h.filed original horiginal, fun t ht => ?_⟩
          obtain ⟨-, ht⟩ := Option.ite_none_right_eq_some.mp ht
          obtain ⟨id, hid, ht⟩ := Option.bind_eq_some_iff.mp ht
          exact hid.trans (congrArg some (Keyed.get?_eq_some_iff.mp ht).2.symm)
        obtain ⟨hinv, hsame⟩ := h.begin hheld hstep
        exact ⟨hinv, reopened_same (congrArg Store.topics hsame)⟩
  | createTopic topicId roomId title description creatorId goal =>
    obtain ⟨s', hinsert, rfl⟩ := Option.map_eq_some_iff.mp hstep
    have hrecords := (insertTopic_eq_some hinsert).2.2
    have hleaves : Leaves d.store s' := by
      refine leaves_insert (m := "") h hinsert (by simp [Topic.Closed, TopicStatus.Terminated]) .refl ?_
      rw [messages_congr hrecords, messages_of_not h.filed (not_has_insertTopic hinsert)]
      rfl
    refine ⟨⟨hleaves.agrees, hleaves.filed, fun j call hj => (h.calls j call hj).mono hleaves.keeps⟩, ?_⟩
    intro t ht u hu hid hended hopened
    cases eq_of_insert hinsert ht hu hid
    exact absurd hopened hended.ne
  | updateTopic i roomId topicId agentId administers body now =>
    simp only [hub] at hstep
    split at hstep
    · cases hstep
    · rename_i topic _
      obtain ⟨-, hstep⟩ := Option.ite_none_left_eq_some.mp hstep
      obtain ⟨changed, hupdate, hbegin⟩ := Option.bind_eq_some_iff.mp hstep
      have hheld : Call.Held d.store (.update topic changed body) := ⟨now, hupdate⟩
      obtain ⟨hinv, hsame⟩ := h.begin hheld hbegin
      exact ⟨hinv, reopened_same (congrArg Store.topics hsame)⟩
  | next i =>
    obtain ⟨call, hcall, rfl⟩ := Option.map_eq_some_iff.mp hstep
    obtain ⟨hinv, hopens⟩ := commit_step h hcall (hmeets call hcall)
    exact ⟨hinv, fun t ht u hu hid hended hopened => ⟨i, call, rfl, hcall, hopens t ht u hu hid hended hopened⟩⟩
  | crash i =>
    obtain ⟨call, -, rfl⟩ := Option.map_eq_some_iff.mp hstep
    exact ⟨h.finish (.refl h), reopened_same rfl⟩
  | forget worker roomId agentId =>
    cases hstep
    exact ⟨h.remember .., reopened_same rfl⟩

theorem inv_empty : Inv {} :=
  ⟨⟨fun t ht => absurd ht Keyed.not_mem_empty, fun t ht => absurd ht Keyed.not_mem_empty,
    fun t ht => absurd ht Keyed.not_mem_empty⟩, fun r hr => absurd hr List.not_mem_nil, fun i call h => (by cases h)⟩

/-- In a run whose steps all meet the condition, the topics agree with their messages, and a step opens a topic that has ended only for a new goal. -/
theorem topics_agree {actions : List Action} (hmeets : hub.Meets Hub.Orderly {} (actions ++ [a]))
    (hrun : hub.run {} actions = some d) (hstep : hub.step d a = some d') :
    d.store.Agrees ∧ d'.store.Agrees ∧ Reopened d a d' := by
  obtain ⟨hactions, hlast⟩ := hub.meets_append.mp hmeets
  have hinv : Inv d := hub.run_invariant_of_meets (fun _ _ _ h hmeets hstep => (step_agrees h hmeets hstep).1)
    inv_empty hactions hrun
  obtain ⟨hinv', hreopened⟩ := step_agrees hinv (hlast d hrun).1 hstep
  exact ⟨hinv.agrees, hinv'.agrees, hreopened⟩

def report (msgId : MsgId) (type : MessageType) (goal : Option String) : SendRequest where
  roomId := "rm_1"
  topic := some "report"
  senderId := "ag_1"
  msgId
  type
  goal
  contentHash := msgId
  receivers := ["ag_2", "ag_3"]
  newTopicId := "tp_1"

/-- A message opens a topic and the receipt of a result closes it, then a message with a goal is sent. -/
def reported : List Action :=
  [.sendRoomMessage 1 0 (report "m_1" .message none) 0, .next 1, .next 1,
    .receiveReceipt 2 { msgId := "m_2", sender := "ag_2", replyTo := "m_1", type := .result } 5, .next 2,
    .sendRoomMessage 3 0 (report "m_3" .message (some "again")) 7, .next 3]

theorem reported_agrees : ∃ d d', hub.run {} reported = some d ∧ hub.step d (.next 3) = some d' ∧
    (∃ t ∈ d.store.topics, t.status = .completed) ∧ (∃ t ∈ d'.store.topics, t.status = .opened) ∧
      d.store.Agrees ∧ d'.store.Agrees ∧ Reopened d (.next 3) d' := by
  have hrun : (hub.run {} reported).any (fun d => (∃ t ∈ d.store.topics, t.status = .completed) ∧
      (hub.step d (.next 3)).any fun d' => ∃ t ∈ d'.store.topics, t.status = .opened) = true := by
    decide +kernel
  obtain ⟨d, hrun, hclosed⟩ := (Option.any_eq_true _ _).mp hrun
  obtain ⟨hclosed, hstep⟩ := of_decide_eq_true hclosed
  obtain ⟨d', hstep, hopened⟩ := (Option.any_eq_true _ _).mp hstep
  have hagree := topics_agree (by decide +kernel) hrun hstep
  exact ⟨d, d', hrun, hstep, hclosed, of_decide_eq_true hopened, hagree⟩

/-- A message that is sent again after another one is counted again. -/
theorem retry_counts_twice : ¬ ∀ (actions : List Action) (d : Hub), hub.run {} actions = some d → d.store.Agrees := by
  intro hagrees
  have hrun : (hub.run {} [.sendRoomMessage 1 0 (report "m_1" .message none) 0, .next 1, .next 1,
      .sendRoomMessage 1 0 (report "m_2" .message none) 2, .next 1, .next 1,
      .sendRoomMessage 1 0 (report "m_1" .message none) 5, .next 1, .next 1]).any
        (fun d => ∃ t ∈ d.store.topics, t.messageCount = 3 ∧ (d.store.messages t.topicId).card = 2) = true := by
    decide +kernel
  obtain ⟨d, hrun, hcount⟩ := (Option.any_eq_true _ _).mp hrun
  obtain ⟨t, ht, hthree, htwo⟩ := of_decide_eq_true hcount
  have hcount := (hagrees _ d hrun).count t ht
  rw [hthree, htwo] at hcount
  cases hcount

end

end BotCord.Topics
