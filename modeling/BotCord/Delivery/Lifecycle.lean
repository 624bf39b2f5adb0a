import BotCord.Delivery.Hub
import Mathlib.Data.List.Nodup

/-!
# The life of a delivery

A delivery that is done or failed should stay so, and one that is acked become nothing but that. A receipt sets the state without a look at what it is, and an acknowledgement or an expiry writes what it decided on a row that has moved on; where neither meets a delivery that has ended, no delivery runs backwards. Receipts are told by their ids, and one that is not forwarded leaves no trace.
-/

namespace BotCord.Delivery

/-- Where a state may go. -/
def MessageState.Forward : MessageState → MessageState → Prop
  | .done, t => t = .done
  | .failed, t => t = .failed
  | .acked, t => t = .acked ∨ t = .done ∨ t = .failed
  | _, _ => True

def MessageState.Final (s : MessageState) : Prop := s = .done ∨ s = .failed
deriving Decidable

theorem MessageState.Forward.refl (s : MessageState) : s.Forward s := by
  cases s <;> simp [Forward]

theorem MessageState.Forward.trans {s t u : MessageState} (hst : s.Forward t) (htu : t.Forward u) : s.Forward u := by
  cases s with
  | queued => trivial
  | processing => trivial
  | delivered => trivial
  | acked => rcases hst with rfl | rfl | rfl <;> simp_all [Forward]
  | done => cases hst; exact htu
  | failed => cases hst; exact htu

/-- What a call finds when it commits: a receipt a delivery that has not ended otherwise, an acknowledgement one that is not acked, an expiry one that is not done. -/
def Hub.Meets (d : Hub) : Call → Prop
  | .poll _ => True
  | .ackInbox => d.record.state ≠ .acked ∧ ¬ d.record.state.Final
  | .expire => d.record.state ≠ .done
  | .receipt msgId type loaded =>
    msgId ∉ d.inbox → d.record.state.Final → type.state = d.record.state ∨ type.state = loaded.state

/-- The condition on a step. -/
def Hub.Orderly (d : Hub) : Action → Prop
  | .next i => ∀ call ∈ d.calls i, d.Meets call
  | _ => True

instance (d : Hub) : DecidablePred d.Meets := fun _ => by
  unfold Hub.Meets
  split <;> infer_instance

instance (d : Hub) : DecidablePred d.Orderly := fun _ => by
  unfold Hub.Orderly
  split <;> infer_instance

/-- A poll that has read the row holds its lock, and the row is still queued. -/
structure Inv (d : Hub) : Prop where
  polls : ∀ i ack, d.calls i = some (.poll ack) → d.locked = some i ∧ d.record.state = .queued
  forwarded : d.forwarded.Nodup
  stored : ∀ msgId ∈ d.forwarded, msgId ∈ d.inbox

variable {d d' t : Hub} {i : ℕ} {a : Action} {call : Call}

theorem receive_state (r loaded : MessageRecord) (now : Instant) (type : ReceiptType) :
    (r.receive loaded now type).state = column loaded.state type.state r.state := by
  cases type <;> rfl

theorem forward_receive {msgId : MsgId} {type : ReceiptType} {loaded : MessageRecord} (hnew : msgId ∉ d.inbox)
    (h : d.Meets (.receipt msgId type loaded)) :
    d.record.state.Forward (d.record.receive loaded d.now type).state := by
  rw [receive_state, column]
  split
  · exact .refl _
  · rename_i hset
    have hmeets := h hnew
    cases hstate : d.record.state with
    | queued => trivial
    | processing => trivial
    | delivered => trivial
    | acked => cases type <;> simp [MessageState.Forward, ReceiptType.state]
    | done => exact ((hmeets (.inl hstate)).resolve_right fun heq => hset heq.symm).trans hstate
    | failed => exact ((hmeets (.inr hstate)).resolve_right fun heq => hset heq.symm).trans hstate

theorem begin_eq_some (h : d.begin i call = some t) :
    d.calls i = none ∧ t = { d with calls := Function.update d.calls i (some call) } := by
  obtain ⟨hnone, h⟩ := Option.ite_none_right_eq_some.mp h
  exact ⟨hnone, (Option.some.inj h).symm⟩

namespace Inv

theorem began (h : Inv d) (hbegin : d.begin i call = some t) (hcall : ∀ ack, call ≠ .poll ack) : Inv t := by
  obtain ⟨-, rfl⟩ := begin_eq_some hbegin
  refine ⟨fun j ack hj => ?_, h.forwarded, h.stored⟩
  rcases eq_or_ne j i with rfl | hne
  · cases (Function.update_self ..).symm.trans hj
    exact absurd rfl (hcall ack)
  · exact h.polls j ack ((Function.update_of_ne hne ..).symm.trans hj)

theorem finish (h : Inv d) (hrecord : d'.record.state = d.record.state ∨ d.locked = none ∨ d.locked = some i)
    (hsame : d'.calls = d.calls ∧ d'.locked = d.locked) (hforwarded : d'.forwarded.Nodup)
    (hstored : ∀ msgId ∈ d'.forwarded, msgId ∈ d'.inbox) : Inv (d'.finish i) := by
  refine ⟨fun j ack hj => ?_, hforwarded, hstored⟩
  rcases eq_or_ne j i with rfl | hne
  · cases (Function.update_self ..).symm.trans hj
  · obtain ⟨hlocked, hqueued⟩ := h.polls j ack (hsame.1 ▸ (Function.update_of_ne hne ..).symm.trans hj)
    refine ⟨?_, ?_⟩
    · show d'.locked.filter (· ≠ i) = some j
      rw [hsame.2, hlocked, Option.filter_some, if_pos (by simpa using hne)]
    · rcases hrecord with hrecord | hfree | hself
      · exact hrecord.trans hqueued
      · rw [hfree] at hlocked
        cases hlocked
      · exact absurd (Option.some.inj (hlocked.symm.trans hself)) hne

theorem write (h : Inv d) (hfree : d.locked = none) (r : MessageRecord) : Inv { d with record := r } := by
  refine ⟨fun j ack hj => ?_, h.forwarded, h.stored⟩
  have hlocked := (h.polls j ack hj).1
  rw [hfree] at hlocked
  cases hlocked

end Inv

theorem inv_opened (record : MessageRecord) (inbox : List MsgId) : Inv { record, inbox } :=
  ⟨fun _ _ h => (by cases h), List.nodup_nil, fun _ h => absurd h List.not_mem_nil⟩

theorem next_forward (h : Inv d) (hmeets : d.Orderly (.next i)) (hstep : delivery.step d (.next i) = some t) :
    Inv t ∧ d.record.state.Forward t.record.state := by
  simp only [delivery] at hstep
  split at hstep
  · cases hstep
  · rename_i call hcall
    obtain ⟨hfree, hstep⟩ := Option.ite_none_right_eq_some.mp hstep
    have hmeets := hmeets call hcall
    cases call with
    | poll ack =>
      cases hstep
      refine ⟨h.finish (.inr hfree) ⟨rfl, rfl⟩ h.forwarded h.stored, ?_⟩
      rw [(h.polls i ack hcall).2]
      trivial
    | ackInbox =>
      cases hstep
      refine ⟨h.finish (.inr hfree) ⟨rfl, rfl⟩ h.forwarded h.stored, ?_⟩
      obtain ⟨hacked, hfinal⟩ := hmeets
      cases hstate : d.record.state with
      | queued => trivial
      | processing => trivial
      | delivered => trivial
      | acked => exact absurd hstate hacked
      | done => exact absurd (.inl hstate) hfinal
      | failed => exact absurd (.inr hstate) hfinal
    | expire =>
      cases hstep
      refine ⟨h.finish (.inr hfree) ⟨rfl, rfl⟩ h.forwarded h.stored, ?_⟩
      show d.record.state.Forward .failed
      cases hstate : d.record.state with
      | queued => trivial
      | processing => trivial
      | delivered => trivial
      | acked => exact .inr (.inr rfl)
      | done => exact absurd hstate hmeets
      | failed => rfl
    | receipt msgId type loaded =>
      cases hstep
      unfold Hub.forward
      split
      · exact ⟨h.finish (.inl rfl) ⟨rfl, rfl⟩ h.forwarded h.stored, .refl _⟩
      · rename_i hnew
        refine ⟨h.finish (.inr hfree) ⟨rfl, rfl⟩ ?_ fun x hx => ?_, forward_receive hnew hmeets⟩
        · exact List.nodup_append'.mpr ⟨h.forwarded, List.nodup_singleton _, fun x hx hmem =>
            hnew (List.mem_singleton.mp hmem ▸ h.stored x hx)⟩
        · rcases List.mem_append.mp hx with hx | hx
          · exact List.mem_append_left _ (h.stored x hx)
          · exact List.mem_append_right _ hx

theorem step_forward (h : Inv d) (hmeets : d.Orderly a) (hstep : delivery.step d a = some t) :
    Inv t ∧ d.record.state.Forward t.record.state := by
  cases a with
  | tick seconds =>
    cases hstep
    exact ⟨⟨h.polls, h.forwarded, h.stored⟩, .refl _⟩
  | store msgId =>
    obtain ⟨-, hstep⟩ := Option.ite_none_left_eq_some.mp hstep
    cases hstep
    exact ⟨⟨h.polls, h.forwarded, fun x hx => List.mem_append_left _ (h.stored x hx)⟩, .refl _⟩
  | pollInbox i ack =>
    obtain ⟨⟨hfree, hqueued, -⟩, hstep⟩ := Option.ite_none_right_eq_some.mp hstep
    obtain ⟨t, hbegin, rfl⟩ := Option.map_eq_some_iff.mp hstep
    obtain ⟨-, rfl⟩ := begin_eq_some hbegin
    refine ⟨⟨fun j ack' hj => ?_, h.forwarded, h.stored⟩, .refl _⟩
    rcases eq_or_ne j i with rfl | hne
    · exact ⟨rfl, hqueued⟩
    · have hlocked := (h.polls j ack' ((Function.update_of_ne hne ..).symm.trans hj)).1
      rw [hfree] at hlocked
      cases hlocked
  | ackInboxMessages i =>
    obtain ⟨-, hbegin⟩ := Option.ite_none_right_eq_some.mp hstep
    refine ⟨h.began hbegin fun _ h => (by cases h), ?_⟩
    obtain ⟨-, rfl⟩ := begin_eq_some hbegin
    exact .refl _
  | expireBatch i =>
    obtain ⟨-, hbegin⟩ := Option.ite_none_right_eq_some.mp hstep
    refine ⟨h.began hbegin fun _ h => (by cases h), ?_⟩
    obtain ⟨-, rfl⟩ := begin_eq_some hbegin
    exact .refl _
  | receiveReceipt i msgId type =>
    refine ⟨h.began hstep fun _ h => (by cases h), ?_⟩
    obtain ⟨-, rfl⟩ := begin_eq_some hstep
    exact .refl _
  | next i => exact next_forward h hmeets hstep
  | crash i =>
    obtain ⟨call, -, rfl⟩ := Option.map_eq_some_iff.mp hstep
    exact ⟨h.finish (.inl rfl) ⟨rfl, rfl⟩ h.forwarded h.stored, .refl _⟩
  | reclaimStaleProcessing =>
    obtain ⟨⟨hfree, hstale⟩, hstep⟩ := Option.ite_none_right_eq_some.mp hstep
    cases hstep
    refine ⟨h.write hfree _, ?_⟩
    rw [hstale.1]
    trivial
  | renewInboxMessageLeases =>
    obtain ⟨⟨hfree, -⟩, hstep⟩ := Option.ite_none_right_eq_some.mp hstep
    cases hstep
    exact ⟨h.write hfree _, .refl _⟩

theorem unforwarded {msgId : MsgId} {type : ReceiptType} {loaded : MessageRecord}
    (hcall : d.calls i = some (.receipt msgId type loaded)) (hstep : delivery.step d (.next i) = some t)
    (hsame : t.forwarded = d.forwarded) : t.record = d.record ∧ t.inbox = d.inbox := by
  simp only [delivery, hcall] at hstep
  obtain ⟨-, hstep⟩ := Option.ite_none_right_eq_some.mp hstep
  cases hstep
  unfold Hub.forward at hsame ⊢
  split
  · exact ⟨rfl, rfl⟩
  · rename_i hnew
    rw [if_neg hnew] at hsame
    have hlength : (d.forwarded ++ [msgId]).length = d.forwarded.length := congrArg List.length hsame
    simp at hlength

/-- In a run whose steps all meet the condition, from one state of the run to a later one the delivery moves forward, no receipt is forwarded twice, and one that is not forwarded leaves everything as it was. -/
theorem delivery_moves_forward {record : MessageRecord} {inbox : List MsgId} {front back : List Action} {mid t : Hub}
    (hmeets : delivery.Meets Hub.Orderly { record, inbox } (front ++ back))
    (hmid : delivery.run { record, inbox } front = some mid) (hend : delivery.run mid back = some t) :
    mid.record.state.Forward t.record.state ∧ t.forwarded.Nodup ∧
      ∀ i msgId type loaded t', t.calls i = some (.receipt msgId type loaded) → delivery.step t (.next i) = some t' →
        t'.forwarded = t.forwarded → t'.record = t.record ∧ t'.inbox = t.inbox := by
  obtain ⟨hfront, hback⟩ := (delivery.meets_append).mp hmeets
  have hinv : Inv mid := delivery.run_invariant_of_meets (fun _ _ _ h hmeets hstep => (step_forward h hmeets hstep).1)
    (inv_opened record inbox) hfront hmid
  have hforward : Inv t ∧ mid.record.state.Forward t.record.state := by
    refine delivery.run_invariant_of_meets (P := fun s => Inv s ∧ mid.record.state.Forward s.record.state)
      (fun s a s' h hmeets hstep => ?_) ⟨hinv, .refl _⟩ (hback mid hmid) hend
    obtain ⟨hinv', hstep⟩ := step_forward h.1 hmeets hstep
    exact ⟨hinv', h.2.trans hstep⟩
  exact ⟨hforward.2, hforward.1.forwarded, fun i msgId type loaded t' hcall hstep => unforwarded hcall hstep⟩

/-- A message is polled and acknowledged, and its receiver answers with a result. -/
def answered : List Action :=
  [.pollInbox 1 false, .next 1, .ackInboxMessages 2, .next 2, .receiveReceipt 3 "r_1" .result, .next 3]

/-- After the result the same receipt comes once more, and another result. -/
theorem answered_moves_forward : ∃ mid t, delivery.run { record := { ttlSec := 60 } } answered = some mid ∧
    delivery.run mid [.receiveReceipt 4 "r_1" .result, .next 4, .receiveReceipt 5 "r_2" .result, .next 5] = some t ∧
    mid.record.state = .done ∧ mid.record.state.Forward t.record.state ∧ t.forwarded.Nodup := by
  have hrun : (delivery.run { record := { ttlSec := 60 } } answered).any (fun mid => mid.record.state = .done ∧
      (delivery.run mid
        [.receiveReceipt 4 "r_1" .result, .next 4, .receiveReceipt 5 "r_2" .result, .next 5]).isSome) = true := by
    decide +kernel
  obtain ⟨mid, hmid, hdone⟩ := (Option.any_eq_true _ _).mp hrun
  obtain ⟨hdone, hsome⟩ := of_decide_eq_true hdone
  obtain ⟨t, hend⟩ := Option.isSome_iff_exists.mp hsome
  have hforward := delivery_moves_forward (by decide +kernel) hmid hend
  exact ⟨mid, t, hmid, hend, hdone, hforward.1, hforward.2.1⟩

/-- An acknowledgement that comes after the result takes the delivery back. -/
theorem ack_takes_back : ¬ ∀ (record : MessageRecord) (front back : List Action) (mid t : Hub),
    delivery.run { record } front = some mid → delivery.run mid back = some t →
      mid.record.state.Forward t.record.state := by
  intro hforward
  have hrun : (delivery.run { record := { ttlSec := 60 } } answered).any (fun mid => mid.record.state = .done ∧
      (delivery.run mid [.receiveReceipt 4 "r_2" .ack, .next 4]).any fun t => t.record.state = .acked) = true := by
    decide +kernel
  obtain ⟨mid, hmid, hdone⟩ := (Option.any_eq_true _ _).mp hrun
  obtain ⟨hdone, hend⟩ := of_decide_eq_true hdone
  obtain ⟨t, hend, hacked⟩ := (Option.any_eq_true _ _).mp hend
  have hstate := hforward _ _ _ mid t hmid hend
  rw [hdone, of_decide_eq_true hacked] at hstate
  cases hstate

end BotCord.Delivery
