import BotCord.Ingress.Orchestrator

/-!
# Every event ends once

Each step of the ingress is, for each event, a few moves of that event's life. So in a run whose frames come in turn an event that is over stays as it is, its reply is begun at most once, and a reply that was sent has delivered it.
-/

/-!
## The life of an event

What the ingress does to one event, apart from all others: it is created, dispatched, answered and closed, and its status is written on the way. The writes of a dispatch and of a send are made after an await, without another look at the status.
-/

namespace BotCord.Ingress

/-! ### Moves -/

structure Life where
  status : Option EventStatus
  dispatching : Bool
  completing : Option SendPhase
  started : ℕ
  replied : Bool

inductive Move : Life → Life → Prop
  /-- Frames may name an event that does not exist. -/
  | unknown {l l'} (hnone : l.status = none) (hnone' : l'.status = none) (hd : l'.dispatching = l.dispatching)
      (hr : l'.replied = l.replied) : Move l l'
  | create {l} (hnew : l = ⟨none, false, none, 0, false⟩) : Move l { l with status := some .queued }
  | dispatch {l status} (hstatus : l.status = some status) (hopen : ¬ status.Terminal)
      (hidle : l.completing ≠ some .sending) : Move l { l with dispatching := true }
  | mark {l} (hd : l.dispatching = true) : Move l { l with status := l.status.map fun _ => .delivering }
  | settle {l} (hd : l.dispatching = true) (status) :
      Move l { l with status := l.status.map fun _ => status, dispatching := false }
  | finish {l} : Move l { l with dispatching := false }
  | reject {l status} (hstatus : l.status = some status) (hopen : ¬ status.Terminal ∨ status = .failed)
      (hd : l.dispatching = false) (hidle : l.completing ≠ some .sending) : Move l { l with status := some .failed }
  | start {l status} (hstatus : l.status = some status) (hopen : ¬ status.Terminal) (hd : l.dispatching = false)
      (hidle : l.completing = none) : Move l { l with completing := some .sending, started := l.started + 1 }
  | reply {l status} (hstatus : l.status = some status) (hsending : l.completing = some .sending) :
      Move l { l with status := some .delivered, completing := some .touching, replied := true }
  | refuse {l} (hsending : l.completing = some .sending) :
      Move l { l with status := l.status.map fun _ => .failed, completing := none }
  | touched {l} (htouching : l.completing = some .touching) : Move l { l with completing := none }
  | requeue {l} (hstatus : l.status = some .delivering) : Move l { l with status := some .queued }

abbrev Moves : Life → Life → Prop := Relation.ReflTransGen Move

/-- A life in turn: an event that is dispatched or being sent is not over, a send that was begun is under way or has ended the event, and an event whose reply was sent is delivered. -/
structure InTurn (l : Life) : Prop where
  dispatching : l.dispatching = true → l.completing ≠ some .sending ∧ ∃ status, l.status = some status ∧ ¬ status.Terminal
  sending : l.completing = some .sending → ∀ status ∈ l.status, ¬ status.Terminal
  touching : l.completing = some .touching → ∀ status ∈ l.status, status.Terminal
  once : l.status ≠ none → l.started ≤ 1
  started : 0 < l.started → l.completing = some .sending ∨ ∀ status ∈ l.status, status.Terminal
  replied : l.replied = true → l.status = some .delivered

variable {status : EventStatus} {l l' : Life}

theorem Move.terminal (h : Move l l') (hl : InTurn l) (hstatus : l.status = some status)
    (hterminal : status.Terminal) : l'.status = some status := by
  cases h with
  | unknown hnone => simp [hnone] at hstatus
  | create hnew => simp [hnew] at hstatus
  | dispatch | finish | touched => exact hstatus
  | start => exact hstatus
  | mark hd | settle hd =>
    obtain ⟨-, other, hother, hopen⟩ := hl.dispatching hd
    rw [hstatus, Option.some.injEq] at hother
    exact absurd (hother ▸ hterminal) hopen
  | reject hother hopen =>
    obtain rfl := Option.some.inj (hstatus.symm.trans hother)
    rw [hopen.resolve_left (not_not.mpr hterminal)]
  | reply _ hsending => exact absurd hterminal (hl.sending hsending status hstatus)
  | refuse hsending => exact absurd hterminal (hl.sending hsending status hstatus)
  | requeue hdelivering =>
    obtain rfl := Option.some.inj (hstatus.symm.trans hdelivering)
    exact absurd hterminal (by decide)

/-- Nothing is under way for an event that is not dispatched, not being sent and not over. -/
theorem InTurn.untouched {l : Life} (hl : InTurn l) (hstatus : l.status = some status)
    (hopen : ¬ status.Terminal) (hidle : l.completing ≠ some .sending) : l.started = 0 ∧ l.completing = none := by
  constructor
  · by_contra hpos
    rcases hl.started (Nat.pos_of_ne_zero hpos) with hsending | hterminal
    · exact hidle hsending
    · exact hopen (hterminal status hstatus)
  · cases hc : l.completing with
    | none => rfl
    | some phase =>
      cases phase with
      | sending => exact absurd hc hidle
      | touching => exact absurd (hl.touching hc status hstatus) hopen

theorem InTurn.move (hl : InTurn l) (h : Move l l') : InTurn l' := by
  have hdelivered : EventStatus.Terminal .delivered := .inl rfl
  have hfailed : EventStatus.Terminal .failed := .inr (.inl rfl)
  cases h with
  | unknown hnone hnone' hd hr =>
    have hidle : l.dispatching ≠ true := fun h => by
      obtain ⟨-, _, hsome, -⟩ := hl.dispatching h
      rw [hnone] at hsome
      cases hsome
    have hsilent : l.replied ≠ true := fun h => by
      have hsome := hl.replied h
      rw [hnone] at hsome
      cases hsome
    constructor <;> simp [hnone', hd, hr, hidle, hsilent]
  | create hnew =>
    subst hnew
    constructor <;> simp
  | @dispatch status hstatus hopen hidle =>
    exact { hl with dispatching := fun _ => ⟨hidle, status, hstatus, hopen⟩ }
  | mark hd =>
    obtain ⟨hidle, status, hstatus, hopen⟩ := hl.dispatching hd
    obtain ⟨hstarted, hcompleting⟩ := hl.untouched hstatus hopen hidle
    have hsilent : l.replied ≠ true := fun h => by
      rw [hl.replied h, Option.some.injEq] at hstatus
      exact hopen (hstatus ▸ hdelivered)
    constructor <;> simp [hstatus, hstarted, hcompleting, hsilent, EventStatus.Terminal]
  | settle hd =>
    obtain ⟨hidle, status, hstatus, hopen⟩ := hl.dispatching hd
    obtain ⟨hstarted, hcompleting⟩ := hl.untouched hstatus hopen hidle
    have hsilent : l.replied ≠ true := fun h => by
      rw [hl.replied h, Option.some.injEq] at hstatus
      exact hopen (hstatus ▸ hdelivered)
    constructor <;> simp [hstarted, hcompleting, hsilent]
  | finish => exact { hl with dispatching := by simp }
  | @reject status hstatus hopen hd hidle =>
    have hsilent : l.replied ≠ true := fun h => by
      rw [hl.replied h, Option.some.injEq] at hstatus
      subst hstatus
      exact hopen.elim (· hdelivered) (by decide)
    refine
      { dispatching := by simp [hd]
        sending := fun h => absurd h hidle
        touching := ?_
        once := ?_
        started := ?_
        replied := fun h => absurd h hsilent }
    · simpa using fun _ => hfailed
    · simpa using hl.once (by simp [hstatus])
    · simpa using fun _ => .inr hfailed
  | @start status hstatus hopen hd hidle =>
    obtain ⟨hstarted, -⟩ := hl.untouched hstatus hopen (by simp [hidle])
    have hsilent : l.replied ≠ true := fun h => by
      rw [hl.replied h, Option.some.injEq] at hstatus
      exact hopen (hstatus ▸ hdelivered)
    constructor <;> simp [hd, hstarted, hsilent, hstatus, hopen]
  | @reply status hstatus hsending =>
    have hidle : l.dispatching ≠ true := fun h => (hl.dispatching h).1 hsending
    have honce := hl.once (by simp [hstatus])
    constructor <;> simp [hidle, honce, hdelivered]
  | refuse hsending =>
    have hidle : l.dispatching ≠ true := fun h => (hl.dispatching h).1 hsending
    have hsilent : l.replied ≠ true := fun h => by
      have hstatus := hl.replied h
      exact hl.sending hsending _ hstatus hdelivered
    refine
      { dispatching := fun h => absurd h hidle
        sending := by simp
        touching := by simp
        once := fun h => hl.once (by simpa using h)
        started := fun _ => .inr ?_
        replied := fun h => absurd h hsilent }
    simp [hfailed]
  | touched htouching =>
    exact
      { hl with
        dispatching := fun h => ⟨by simp, (hl.dispatching h).2⟩
        sending := by simp
        touching := by simp
        started := fun _ => .inr (hl.touching htouching) }
  | requeue hdelivering =>
    have hopen : ¬ EventStatus.Terminal .delivering := by decide
    have hsilent : l.replied ≠ true := fun h => by
      have hstatus := hl.replied h
      rw [hdelivering] at hstatus
      cases hstatus
    have hqueued : ¬ EventStatus.Terminal .queued := by decide
    refine
      { dispatching := fun h => ⟨(hl.dispatching h).1, _, rfl, hqueued⟩
        sending := ?_
        touching := fun h => absurd (hl.touching h _ hdelivering) hopen
        once := fun _ => hl.once (by simp [hdelivering])
        started := fun h => (hl.started h).imp_right fun hover => absurd (hover _ hdelivering) hopen
        replied := fun h => absurd h hsilent }
    simp [hqueued]

theorem InTurn.moves (hl : InTurn l) (h : Moves l l') : InTurn l' := by
  induction h with
  | refl => exact hl
  | tail _ hmove ih => exact ih.move hmove

theorem Moves.terminal (h : Moves l l') (hl : InTurn l)
    (hstatus : l.status = some status) (hterminal : status.Terminal) : l'.status = some status := by
  induction h with
  | refl => exact hstatus
  | tail hmoves hmove ih => exact hmove.terminal (hl.moves hmoves) ih hterminal

end BotCord.Ingress

namespace BotCord.Ingress

open Orchestrator

variable {options : Options} {s : Orchestrator} {id : EventId}

namespace Orchestrator

def life (s : Orchestrator) (id : EventId) : Life where
  status := s.store.statusOf id
  dispatching := (s.dispatches id).isSome
  completing := (s.completing id).map (·.phase)
  started := s.started.count id
  replied := id ∈ s.replied

theorem life_updateEvent {patch : InboundEvent → InboundEvent} {hid : ∀ e, (patch e).eventId = e.eventId}
    {status : EventStatus} (hpatch : ∀ e, (patch e).status = status) (x : EventId) :
    (s.updateEvent id patch hid).life x =
      if x = id then { s.life id with status := (s.life id).status.map fun _ => status } else s.life x := by
  unfold life updateEvent Store.statusOf
  by_cases hx : x = id
  · subst hx
    rw [if_pos rfl]
    simp only [Store.getEvent_updateEvent, if_true, Option.map_map, Function.comp_def, hpatch]
  · simp only [Store.getEvent_updateEvent, if_neg hx]

theorem life_setDispatch (dispatch : Option Dispatch) (x : EventId) :
    (s.setDispatch id dispatch).life x = if x = id then { s.life id with dispatching := dispatch.isSome } else s.life x := by
  unfold life setDispatch
  by_cases hx : x = id
  · subst hx
    rw [if_pos rfl]
    simp only [Function.update_self]
  · simp only [Function.update_of_ne hx, if_neg hx]

theorem life_setCompleting (send : Option Send) (x : EventId) :
    (s.setCompleting id send).life x =
      if x = id then { s.life id with completing := send.map (·.phase) } else s.life x := by
  unfold life setCompleting
  by_cases hx : x = id
  · subst hx
    rw [if_pos rfl]
    simp only [Function.update_self]
  · simp only [Function.update_of_ne hx, if_neg hx]

theorem life_congr {t : Orchestrator} (hevents : t.store.events = s.store.events) (hdispatches : t.dispatches = s.dispatches)
    (hcompleting : t.completing = s.completing) (hstarted : t.started = s.started) (hreplied : t.replied = s.replied)
    (x : EventId) : t.life x = s.life x := by
  unfold life Store.statusOf Store.getEvent
  rw [hevents, hdispatches, hcompleting, hstarted, hreplied]

end Orchestrator

def Advances (s t : Orchestrator) : Prop := ∀ x, Moves (s.life x) (t.life x)

theorem Advances.refl (s : Orchestrator) : Advances s s := fun _ => .refl

theorem Advances.trans {t u : Orchestrator} (h : Advances s t) (h' : Advances t u) : Advances s u := fun x => (h x).trans (h' x)

variable {t : Orchestrator}

theorem advances_of_life {l : Life} (hlife : ∀ x, t.life x = if x = id then l else s.life x)
    (hmove : Moves (s.life id) l) : Advances s t := by
  intro x
  rw [hlife]
  split
  · rename_i hx
    exact hx ▸ hmove
  · exact .refl

theorem advances_of_congr (hlife : ∀ x, t.life x = s.life x) : Advances s t := by
  intro x
  rw [hlife x]

theorem life_dispatching : (s.life id).dispatching = true ↔ s.dispatches id ≠ none := by
  simp [life, Option.isSome_iff_ne_none]

theorem life_status {status : EventStatus} : (s.life id).status = some status ↔
    ∃ e, s.store.getEvent id = some e ∧ e.status = status := Option.map_eq_some_iff

def Sending (s : Orchestrator) (id : EventId) : Prop := (s.completing id).any (·.phase = .sending) = true
deriving Decidable

theorem life_sending : (s.life id).completing = some .sending ↔ Sending s id := by
  simp [life, Sending, Option.map_eq_some_iff, Option.any_eq_true]

/-! ### Dispatching -/

theorem life_failEvent (lastError : String) : ∀ x, (s.failEvent id lastError).life x =
    if x = id then { s.life id with status := (s.life id).status.map fun _ => .failed } else s.life x :=
  life_updateEvent fun _ => rfl

theorem life_giveUp (lastError : String) (x : EventId) : (s.giveUp id lastError).life x =
    if x = id then { s.life id with status := (s.life id).status.map fun _ => .failed, dispatching := false }
    else s.life x := by
  rw [giveUp, life_setDispatch, life_failEvent, life_failEvent, if_pos rfl]
  split
  · rfl
  · rfl

theorem life_giveBack (d : Dispatch) (lastError : String) (x : EventId) : (s.giveBack options id d lastError).life x =
    if x = id then { s.life id with status := (s.life id).status.map fun _ => .queued, dispatching := false }
    else s.life x := by
  have hrequeue : ∀ x, (s.requeueEvent options id d.event lastError).life x =
      if x = id then { s.life id with status := (s.life id).status.map fun _ => .queued } else s.life x :=
    life_updateEvent fun _ => rfl
  rw [giveBack, life_setDispatch, hrequeue, hrequeue, if_pos rfl]
  split
  · rfl
  · rfl

theorem life_waitFor (d : Dispatch) (phase : Phase) (x : EventId) : (s.waitFor id d phase).life x =
    if x = id then { s.life id with dispatching := true } else s.life x := life_setDispatch _ x

theorem advances_sendFrame {d : Dispatch} (socket : SocketId) : Advances s (s.sendFrame id d socket) := by
  have hlife : ∀ x, (s.sendFrame id d socket).life x =
      if x = id then { s.life id with dispatching := false } else s.life x := life_setDispatch none
  exact advances_of_life hlife (.single .finish)

section Dispatching

variable {d : Dispatch} (hd : s.dispatches id = some d)

include hd

theorem advances_giveUp (lastError : String) : Advances s (s.giveUp id lastError) :=
  advances_of_life (life_giveUp lastError) (.single (.settle (life_dispatching.mpr (by simp [hd])) _))

theorem advances_giveBack (lastError : String) : Advances s (s.giveBack options id d lastError) :=
  advances_of_life (life_giveBack d lastError) (.single (.settle (life_dispatching.mpr (by simp [hd])) _))

theorem advances_waitFor {t : Orchestrator} (hsame : ∀ x, t.life x = s.life x) (phase : Phase) :
    Advances s (t.waitFor id d phase) := by
  have hbusy : (s.life id).dispatching = true := life_dispatching.mpr (by simp [hd])
  refine advances_of_congr fun x => ?_
  rw [life_waitFor, hsame, hsame]
  split
  · rename_i hx
    rw [hx, ← hbusy]
  · rfl

theorem advances_ensureSession : Advances s (s.ensureSession id d) := by
  simp only [ensureSession]
  split
  · exact advances_waitFor hd (fun _ => rfl) _
  · split
    · exact advances_waitFor hd (fun _ => rfl) _
    · exact advances_waitFor hd (fun _ => rfl) _

theorem advances_onMetadata (answer : RuntimeAnswer) : Advances s (s.onMetadata options id d answer) := by
  cases answer with
  | failed | deleted => exact advances_giveUp hd _
  | ready hasMetadata =>
    cases hasMetadata with
    | true => exact advances_ensureSession hd
    | false => exact advances_giveBack hd _
  | other | error => exact advances_giveBack hd _
  | hubClientError status code =>
    simp only [onMetadata]
    split
    · exact advances_giveUp hd _
    · exact advances_giveBack hd _

theorem advances_deliver : Advances s (s.deliver id d) := by
  have hbusy : (s.life id).dispatching = true := life_dispatching.mpr (by simp [hd])
  simp only [deliver]
  generalize hmarked : s.updateEvent id (fun e =>
    { e with status := .delivering, attemptCount := d.event.attemptCount + 1, nextAttemptAt := none }) = marked
  have hlife : ∀ x, marked.life x =
      if x = id then { s.life id with status := (s.life id).status.map fun _ => .delivering } else s.life x := by
    rw [← hmarked]
    exact life_updateEvent fun _ => rfl
  have hd' : marked.dispatches id = some d := by
    rw [← hmarked]
    exact hd
  exact (advances_of_life hlife (.single (.mark hbusy))).trans (advances_waitFor hd' (fun _ => rfl) _)

theorem advances_resume {t : Orchestrator} (hresume : s.resume options id d = some t) : Advances s t := by
  unfold resume at hresume
  split at hresume
  · cases hresume
  · cases hresume
  · split at hresume
    · cases hresume
    · obtain rfl := Option.some.inj hresume
      exact advances_waitFor hd (fun _ => rfl) _
    · obtain rfl := Option.some.inj hresume
      exact advances_giveBack hd _
  · obtain rfl := Option.some.inj hresume
    exact advances_deliver hd
  · split at hresume
    · cases hresume
    · obtain rfl := Option.some.inj hresume
      split
      · exact advances_sendFrame _
      · exact advances_giveBack hd _
    · obtain rfl := Option.some.inj hresume
      exact advances_giveBack hd _
  · obtain rfl := Option.some.inj hresume
    exact advances_giveBack hd _

end Dispatching

/-- A dispatch may begin while no reply to its event is being sent. -/
def MayDispatch (s : Orchestrator) (id : EventId) : Prop :=
  ∀ e ∈ s.store.getEvent id, ¬ e.status.Terminal → s.dispatches id = none → ¬ Sending s id
deriving Decidable

theorem advances_dispatchEvent (hmay : MayDispatch s id) : Advances s (s.dispatchEvent id) := by
  unfold dispatchEvent
  split
  · exact .refl s
  · rename_i hfree
    rw [not_not] at hfree
    split
    · exact .refl s
    · rename_i event hevent
      split
      · exact .refl s
      · rename_i hopen
        have hstatus : (s.life id).status = some event.status := life_status.mpr ⟨event, hevent, rfl⟩
        have hidle := hmay event hevent hopen hfree
        have hnot : (s.life id).completing ≠ some .sending := mt life_sending.mp hidle
        have hd : (s.life id).dispatching = false := by simp [life, hfree]
        split
        · refine advances_of_life (life_failEvent _) (.single ?_)
          rw [hstatus]
          exact .reject hstatus (.inl hopen) hd hnot
        · exact advances_of_life (life_setDispatch _) (.single (.dispatch hstatus hopen hnot))

/-! ### Frames -/

/-- A frame may fail an event that has not been delivered or given up, while neither a dispatch nor a send is under way for it. -/
def MayFail (s : Orchestrator) (id : EventId) : Prop :=
  ∀ e ∈ s.store.getEvent id, (¬ e.status.Terminal ∨ e.status = .failed) ∧ s.dispatches id = none ∧ ¬ Sending s id
deriving Decidable

/-- A reply that is going to be sent may come while no dispatch of its event is under way. -/
def MayComplete (s : Orchestrator) (id : EventId) : Prop :=
  ∀ e ∈ s.store.getEvent id, ¬ e.status.Terminal → s.completing id = none → s.dispatches id = none
deriving Decidable

theorem advances_fail (hlife : ∀ x, t.life x =
    if x = id then { s.life id with status := (s.life id).status.map fun _ => .failed } else s.life x)
    (hmay : MayFail s id) : Advances s t := by
  refine advances_of_life hlife ?_
  cases hevent : s.store.getEvent id with
  | none =>
    have hnone : (s.life id).status = none := by simp [life, Store.statusOf, hevent]
    exact .single (.unknown hnone (by rw [hnone]; rfl) rfl rfl)
  | some e =>
    obtain ⟨hopen, hfree, hidle⟩ := hmay e hevent
    have hstatus : (s.life id).status = some e.status := life_status.mpr ⟨e, hevent, rfl⟩
    have hd : (s.life id).dispatching = false := by simp [life, hfree]
    have hmove := Move.reject hstatus hopen hd (mt life_sending.mp hidle)
    rw [hstatus]
    exact .single hmove

theorem ensureDeliveryFor_events (reply : Reply) (deliveryId : DeliveryId) :
    (s.ensureDeliveryFor reply deliveryId).1.store.events = s.store.events := by
  unfold ensureDeliveryFor Store.ensureDeliveryFor
  dsimp only
  split
  · rfl
  · split <;> rfl

theorem life_ensureDeliveryFor (reply : Reply) (deliveryId : DeliveryId) (x : EventId) :
    (s.ensureDeliveryFor reply deliveryId).1.life x = s.life x :=
  life_congr (ensureDeliveryFor_events reply deliveryId) rfl rfl rfl rfl x

theorem advances_onComplete {reply : Reply} (hmay : MayComplete s reply.eventId) (deliveryId : DeliveryId) :
    Advances s (s.onComplete reply deliveryId) := by
  unfold onComplete
  split
  · exact .refl s
  · rename_i hopen
    split
    · exact .refl s
    · rename_i hidle
      rw [not_not] at hidle
      have hsending : ¬ Sending s reply.eventId := by simp [Sending, hidle]
      split
      · refine advances_fail (life_updateEvent fun _ => rfl) fun e he => ?_
        have hstatus : ¬ e.status.Terminal := by simpa [Option.mem_def.mp he] using hopen
        exact ⟨.inl hstatus, hmay e he hstatus hidle, hsending⟩
      · have hlife : ∀ x, ({ (s.ensureDeliveryFor reply deliveryId).1.setCompleting reply.eventId
            (some { deliveryId := (s.ensureDeliveryFor reply deliveryId).2 }) with
              started := s.started ++ [reply.eventId] } : Orchestrator).life x =
            if x = reply.eventId then
              { s.life reply.eventId with completing := some .sending, started := (s.life reply.eventId).started + 1 }
            else s.life x := by
          intro x
          have hlife := @life_setCompleting (s.ensureDeliveryFor reply deliveryId).1 reply.eventId
            (some { deliveryId := (s.ensureDeliveryFor reply deliveryId).2 }) x
          rw [life_ensureDeliveryFor, life_ensureDeliveryFor] at hlife
          refine (congrArg (fun l : Life => { l with started := (s.started ++ [reply.eventId]).count x }) hlife).trans ?_
          rw [List.count_append]
          split
          · rename_i hx
            rw [hx, List.count_singleton_self]
            rfl
          · rename_i hx
            rw [List.count_singleton, if_neg (by simpa using Ne.symm hx)]
            rfl
        refine advances_of_life hlife ?_
        cases hevent : s.store.getEvent reply.eventId with
        | none =>
          have hnone : (s.life reply.eventId).status = none := by simp [life, Store.statusOf, hevent]
          exact .single (.unknown hnone hnone rfl rfl)
        | some e =>
          have hstatus : ¬ e.status.Terminal := by simpa [hevent] using hopen
          have hfree : (s.life reply.eventId).dispatching = false := by simp [life, hmay e hevent hstatus hidle]
          exact .single (.start (life_status.mpr ⟨e, hevent, rfl⟩) hstatus hfree (by simp [life, hidle]))

def FrameInTurn (s : Orchestrator) : RuntimeFrame → Prop
  | .inboundAck id false _ => MayFail s id
  | .outboundComplete reply _ => MayComplete s reply.eventId
  | .outboundError reply _ _ => MayFail s reply.eventId
  | _ => True

instance (frame : RuntimeFrame) : Decidable (FrameInTurn s frame) := by
  unfold FrameInTurn
  split <;> infer_instance

theorem advances_onRuntimeFrame {frame : RuntimeFrame} (hframe : FrameInTurn s frame) (deliveryId : DeliveryId) :
    Advances s (s.onRuntimeFrame deliveryId frame) := by
  cases frame with
  | inboundAck id accepted errorCode =>
    cases accepted with
    | true => exact .refl s
    | false => exact advances_fail (life_updateEvent fun _ => rfl) hframe
  | outboundStart reply => exact advances_of_congr (life_ensureDeliveryFor reply deliveryId)
  | outboundDelta reply => exact advances_of_congr (life_ensureDeliveryFor reply deliveryId)
  | outboundComplete reply text => exact advances_onComplete hframe deliveryId
  | outboundError reply code message =>
    simp only [onRuntimeFrame]
    split
    · exact .refl s
    · have hfailed : Advances s (s.updateEvent reply.eventId fun e =>
          { e with status := .failed, lastError := some ("runtime_error:" ++ code) }) :=
        advances_fail (life_updateEvent fun _ => rfl) hframe
      split
      · exact hfailed.trans (advances_of_congr fun _ => rfl)
      · exact hfailed
  | outboundTyping | heartbeat => exact .refl s

/-! ### Sends and closes -/

theorem advances_onSent {send : Send} (hsend : s.completing id = some send) (hphase : send.phase = .sending)
    (result : Except String (Option String)) : Advances s (s.onSent id send result) := by
  have hsending : (s.life id).completing = some .sending := by simp [life, hsend, hphase]
  cases result with
  | error text =>
    simp only [onSent]
    generalize hfailed : (s.updateDelivery send.deliveryId fun d => { d with status := .failed, lastError := some text }).updateEvent
      id (fun e => { e with status := .failed, lastError := some ("provider_send_failed: " ++ text) }) = failed
    have hlife : ∀ x, failed.life x =
        if x = id then { s.life id with status := (s.life id).status.map fun _ => .failed } else s.life x := by
      rw [← hfailed]
      exact life_updateEvent fun _ => rfl
    refine advances_of_life (fun x => ?_) (.single (.refuse hsending))
    rw [life_setCompleting, hlife, hlife, if_pos rfl]
    split
    · rfl
    · rfl
  | ok providerMessageId =>
    simp only [onSent]
    split
    · rename_i hevent
      have hnone : (s.life id).status = none := by simp [life, Store.statusOf, hevent]
      exact advances_of_life (life_setCompleting none) (.single (.unknown hnone hnone rfl rfl))
    · rename_i hevent
      obtain ⟨e, hevent⟩ := Option.ne_none_iff_exists'.mp hevent
      have hstatus : (s.life id).status = some e.status := life_status.mpr ⟨e, hevent, rfl⟩
      generalize hdone : (s.updateDelivery send.deliveryId fun d => { d with status := .sent, providerMessageId }).updateEvent
        id (fun e => { e with status := .delivered }) = done
      have hlife : ∀ x, done.life x =
          if x = id then { s.life id with status := (s.life id).status.map fun _ => .delivered } else s.life x := by
        rw [← hdone]
        exact life_updateEvent fun _ => rfl
      rw [hstatus, Option.map_some] at hlife
      refine advances_of_life (fun x => ?_) (.single (.reply hstatus hsending))
      have hset := @life_setCompleting done id (some { send with phase := .touching }) x
      refine (congrArg (fun l : Life => { l with replied := decide (x ∈ s.replied ++ [id]) }) hset).trans ?_
      rw [hlife, hlife, if_pos rfl]
      split
      · rename_i hx
        simp [hx]
      · rename_i hx
        simp [hx, life]

theorem getEvent_onRuntimeClose (agentId : AgentId) (reason : String) (x : EventId) :
    (s.onRuntimeClose agentId reason).store.getEvent x = (s.store.getEvent x).map fun e =>
      if e.status = .delivering ∧ e.agentId = agentId then
        { e with status := .queued, lastError := some ("runtime_closed:" ++ reason), updatedAt := s.clock }
      else e := by
  unfold onRuntimeClose Store.getEvent
  rw [Keyed.get?_modify]

theorem advances_onRuntimeClose (agentId : AgentId) (reason : String) : Advances s (s.onRuntimeClose agentId reason) := by
  intro x
  have hlife : (s.onRuntimeClose agentId reason).life x =
      { s.life x with status := (s.onRuntimeClose agentId reason).store.statusOf x } := rfl
  rw [hlife, Store.statusOf, getEvent_onRuntimeClose]
  cases hevent : s.store.getEvent x with
  | none =>
    have hnone : (s.life x).status = none := by simp [life, Store.statusOf, hevent]
    exact .single (.unknown hnone rfl rfl rfl)
  | some e =>
    have hstatus : (s.life x).status = some e.status := life_status.mpr ⟨e, hevent, rfl⟩
    rw [Option.map_some, Option.map_some]
    split
    · rename_i hclosed
      exact .single (.requeue (hstatus.trans (congrArg some hclosed.1)))
    · rw [← hstatus]

theorem advances_ingest {gatewayId : GatewayId} {message : InboundMessage} {providerEventId : String}
    (hnew : s.Unknown id) : Advances s (s.ingest gatewayId message providerEventId id) := by
  obtain ⟨hevent, hfree, hidle, hstarted, hreplied⟩ := hnew
  unfold ingest
  split
  · exact .refl s
  · rename_i connection hconnection
    split
    · exact .refl s
    · split
      · exact .refl s
      · rename_i store hinsert
        refine Advances.trans (t := { s with store := store.appendDedupe gatewayId providerEventId }) ?_
          (advances_dispatchEvent fun _ _ _ _ => by simp [Sending, hidle])
        refine @advances_of_life s id _ { s.life id with status := some .queued } (fun x => ?_) (.single (.create ?_))
        · have hstatus := Store.statusOf_insertEvent hinsert gatewayId providerEventId x
          refine (congrArg (fun status => ({ s.life x with status } : Life)) hstatus).trans ?_
          show ({ s.life x with status := if x = id then some .queued else s.store.statusOf x } : Life) = _
          split
          · rename_i hx
            rw [hx]
          · rfl
        · simp [life, Store.statusOf, hevent, hfree, hidle, hstarted, hreplied, List.count_eq_zero]

/-! ### Runs -/

def Retries (options : Options) (s : Orchestrator) (r : Retry) (event : InboundEvent) : Prop :=
  event ∈ r.rest.head? ∧ (r.force = true ∨ IsDue options s event r.now)
deriving Decidable

/-- A step comes in turn: a frame that ends an event comes while the event is neither dispatched nor answered, a reply comes after the dispatch has ended, and no event is dispatched again while its reply is being sent. -/
def InOrder (options : Options) (s : Orchestrator) : Action → Prop
  | .retryNext => ∀ r ∈ s.retry, ∀ event ∈ r.rest.head?, Retries options s r event → MayDispatch s event.eventId
  | .frame _ frame _ => FrameInTurn s frame
  | _ => True

instance (a : Action) : Decidable (InOrder options s a) := by
  unfold InOrder
  split <;> infer_instance

theorem retryNext_cases {r : Retry} (hnext : s.retryNext options r = some t) :
    (∃ retry, t = { s with retry }) ∨
      ∃ event retry, Retries options s r event ∧ t = { s with retry }.dispatchEvent event.eventId := by
  unfold retryNext at hnext
  split at hnext
  · cases hnext
  · split at hnext
    · exact .inl ⟨none, (Option.some.inj hnext).symm⟩
    · rename_i event rest hrest
      split at hnext
      · exact .inl ⟨_, (Option.some.inj hnext).symm⟩
      · rename_i hdue
        refine .inr ⟨event, _, ⟨by rw [hrest, List.head?_cons, Option.mem_some], ?_⟩, (Option.some.inj hnext).symm⟩
        by_contra hnot
        rw [not_or, Bool.not_eq_true] at hnot
        exact hdue hnot

theorem advances_retryNext {r : Retry} (hr : s.retry = some r) (horder : InOrder options s .retryNext)
    (hnext : s.retryNext options r = some t) : Advances s t := by
  obtain ⟨retry, rfl⟩ | ⟨event, retry, hretries, rfl⟩ := retryNext_cases hnext
  · exact advances_of_congr fun _ => rfl
  · have hmay : MayDispatch s event.eventId := horder r hr event hretries.1 hretries
    refine Advances.trans (t := { s with retry }) ?_ (advances_dispatchEvent hmay)
    exact advances_of_congr fun _ => rfl

theorem advances_step {a : Action} (horder : InOrder options s a)
    (hstep : (ingress options).step s a = some t) : Advances s t := by
  cases a with
  | tick now =>
    obtain ⟨-, hstep⟩ := Option.ite_none_right_eq_some.mp hstep
    exact Option.some.inj hstep ▸ advances_of_congr fun _ => rfl
  | configure connections providers =>
    obtain rfl := Option.some.inj hstep
    exact advances_of_congr fun _ => rfl
  | ingest gatewayId message providerEventId id =>
    obtain ⟨hnew, hstep⟩ := Option.ite_none_right_eq_some.mp hstep
    exact Option.some.inj hstep ▸ advances_ingest hnew
  | retryPending force =>
    obtain rfl := Option.some.inj hstep
    unfold retryPending
    split
    · exact .refl s
    · exact advances_of_congr fun _ => rfl
  | retryNext =>
    obtain ⟨r, hr, hnext⟩ := Option.bind_eq_some_iff.mp hstep
    exact advances_retryNext hr horder hnext
  | metadata id answer =>
    obtain ⟨d, hd, rfl⟩ := Option.map_eq_some_iff.mp hstep
    exact advances_onMetadata (Option.filter_eq_some_iff.mp hd).1 answer
  | connected id socket readyState =>
    obtain ⟨-, hstep⟩ := Option.ite_none_right_eq_some.mp hstep
    obtain ⟨d, hd, rfl⟩ := Option.map_eq_some_iff.mp hstep
    refine advances_of_life (life_setDispatch (some _)) ?_
    have hbusy : (s.life id).dispatching = true :=
      life_dispatching.mpr (by simp [(Option.filter_eq_some_iff.mp hd).1])
    rw [Option.isSome_some, ← hbusy]
  | connectFailed id error =>
    obtain ⟨d, hd, rfl⟩ := Option.map_eq_some_iff.mp hstep
    exact advances_giveBack (Option.filter_eq_some_iff.mp hd).1 _
  | resume id =>
    obtain ⟨d, hd, hresume⟩ := Option.bind_eq_some_iff.mp hstep
    exact advances_resume hd hresume
  | sendThrows id error =>
    obtain ⟨d, hd, rfl⟩ := Option.map_eq_some_iff.mp hstep
    exact advances_giveBack (Option.filter_eq_some_iff.mp hd).1 _
  | opens | closing | errors | closeSession =>
    obtain ⟨_, -, rfl⟩ := Option.map_eq_some_iff.mp hstep
    exact advances_of_congr fun _ => rfl
  | closes socket reason =>
    obtain ⟨x, -, rfl⟩ := Option.map_eq_some_iff.mp hstep
    exact Advances.trans (advances_of_congr fun _ => rfl) (advances_onRuntimeClose _ _)
  | frame socket frame deliveryId =>
    obtain ⟨-, hstep⟩ := Option.ite_none_right_eq_some.mp hstep
    exact Option.some.inj hstep ▸ advances_onRuntimeFrame horder deliveryId
  | sent id result =>
    obtain ⟨send, hsend, rfl⟩ := Option.map_eq_some_iff.mp hstep
    obtain ⟨hsend, hphase⟩ := Option.filter_eq_some_iff.mp hsend
    exact advances_onSent hsend (of_decide_eq_true hphase) result
  | touched id =>
    obtain ⟨send, hsend, rfl⟩ := Option.map_eq_some_iff.mp hstep
    obtain ⟨hsend, hphase⟩ := Option.filter_eq_some_iff.mp hsend
    have htouching : (s.life id).completing = some .touching := by
      simp [life, Option.mem_def.mp hsend, of_decide_eq_true hphase]
    exact advances_of_life (life_setCompleting none) (.single (.touched htouching))

/-- A state in which nothing is under way: the store, and what was configured. -/
structure Idle (s : Orchestrator) : Prop where
  dispatches : s.dispatches = fun _ => none
  completing : s.completing = fun _ => none
  sessions : s.sessions = fun _ => none
  sockets : s.sockets = fun _ => none
  retry : s.retry = none
  latest : s.latest = fun _ => none
  carrier : s.carrier = fun _ => none
  started : s.started = []
  replied : s.replied = []

theorem Idle.inTurn (h : Idle s) (id : EventId) : InTurn (s.life id) := by
  constructor <;> simp [life, h.dispatches, h.completing, h.started, h.replied]

theorem advances_run {actions : List Action} (hmeets : (ingress options).Meets (InOrder options) s actions)
    (hrun : (ingress options).run s actions = some t) : Advances s t :=
  (ingress options).run_invariant_of_meets (P := Advances s)
    (fun _ _ _ hsofar horder hstep => hsofar.trans (advances_step horder hstep)) (.refl s) hmeets hrun

/-- In every run in order, an event that is over stays as it is, its reply is begun at most once, and an event whose reply was sent is delivered. -/
theorem events_end_once {start t : Orchestrator} {front back : List Action} (hstart : Idle start)
    (hmeets : (ingress options).Meets (InOrder options) start (front ++ back))
    (hfront : (ingress options).run start front = some s) (hback : (ingress options).run s back = some t) (id : EventId) :
    (∀ status ∈ s.store.statusOf id, status.Terminal → t.store.statusOf id = some status) ∧
      (t.store.statusOf id ≠ none → t.started.count id ≤ 1) ∧
      (id ∈ t.replied → t.store.statusOf id = some .delivered) := by
  obtain ⟨hmeets, hrest⟩ := (ingress options).meets_append.mp hmeets
  have hs := (hstart.inTurn id).moves (advances_run hmeets hfront id)
  have hmoves := advances_run (hrest s hfront) hback id
  have ht := hs.moves hmoves
  refine ⟨fun status hstatus hterminal => hmoves.terminal hs hstatus hterminal, ht.once, fun hreplied => ?_⟩
  exact ht.replied (decide_eq_true hreplied)

def telegram : Connection where
  id := "gw"
  agentId := { text := "ag" }
  provider := .telegram

def configured : Orchestrator where
  store := { connections := { rows := [telegram], distinct := List.nodup_singleton _ } }
  providers := ["gw"]

def message : InboundMessage where
  id := "m"
  conversationId := "c"
  senderId := "u"

def reply : Reply where
  eventId := 1
  gatewayId := "gw"
  conversationId := "c"
  turnId := "t"

/-- A message is recorded and sent to the runtime. -/
def handedOver : List Action :=
  [.ingest "gw" message "up_1" 1, .metadata 1 (.ready true), .connected 1 7 .opened, .resume 1, .resume 1, .resume 1]

/-- The runtime answers, and the answer is sent. -/
def answered : List Action :=
  [.frame 7 (.inboundAck 1 true none) 1, .frame 7 (.outboundComplete reply "hello") 1, .sent 1 (.ok none), .touched 1]

/-- The runtime answers, then its socket closes; the event is due again while its answer is being sent. -/
def overtaken : List Action :=
  [.frame 7 (.outboundComplete reply "hello") 1, .closes 7 "code=1006", .tick 1000, .retryPending false, .retryNext,
    .sent 1 (.ok none), .touched 1, .metadata 1 (.ready true), .connected 1 8 .opened, .resume 1, .resume 1, .resume 1,
    .frame 8 (.outboundComplete reply "hello again") 2]

theorem configured_idle : Idle configured where
  dispatches := rfl
  completing := rfl
  sessions := rfl
  sockets := rfl
  retry := rfl
  latest := rfl
  carrier := rfl
  started := rfl
  replied := rfl

theorem events_end_once_answered : ∃ s t, (ingress {}).run configured handedOver = some s ∧
    (ingress {}).run s answered = some t ∧ s.store.statusOf 1 = some .delivering ∧ 1 ∈ t.replied ∧
    t.store.statusOf 1 = some .delivered ∧ t.started.count 1 ≤ 1 := by
  have hmeets : (ingress {}).Meets (InOrder {}) configured (handedOver ++ answered) := by decide +kernel
  have hrun : ((ingress {}).run configured handedOver).any (fun s => s.store.statusOf 1 = some .delivering ∧
      ((ingress {}).run s answered).any (fun t => 1 ∈ t.replied) = true) = true := by decide +kernel
  obtain ⟨s, hfront, hrun⟩ := Option.any_eq_true _ _ |>.mp hrun
  obtain ⟨hdelivering, hrun⟩ := of_decide_eq_true hrun
  obtain ⟨t, hback, hreplied⟩ := Option.any_eq_true _ _ |>.mp hrun
  have hreplied := of_decide_eq_true hreplied
  obtain ⟨-, honce, hends⟩ := events_end_once configured_idle hmeets hfront hback 1
  have hdelivered := hends hreplied
  exact ⟨s, t, hfront, hback, hdelivering, hreplied, hdelivered, honce (by simp [hdelivered])⟩

/-- A late error fails an event whose reply was sent, and an event that is dispatched again while its reply is being sent is answered twice. -/
theorem delivered_event_fails :
    (∃ s t, (ingress {}).run configured (handedOver ++ answered) = some s ∧ s.store.statusOf 1 = some .delivered ∧
      (ingress {}).run s [.frame 7 (.outboundError reply "late" "too late") 2] = some t ∧ 1 ∈ t.replied ∧
      t.store.statusOf 1 = some .failed) ∧
    ∃ t, (ingress {}).run configured (handedOver ++ overtaken) = some t ∧ t.started.count 1 = 2 := by
  constructor
  · have hrun : ((ingress {}).run configured (handedOver ++ answered)).any (fun s => s.store.statusOf 1 = some .delivered ∧
        ((ingress {}).run s [.frame 7 (.outboundError reply "late" "too late") 2]).any (fun t =>
          1 ∈ t.replied ∧ t.store.statusOf 1 = some .failed) = true) = true := by decide +kernel
    obtain ⟨s, hfront, hrun⟩ := Option.any_eq_true _ _ |>.mp hrun
    obtain ⟨hdelivered, hrun⟩ := of_decide_eq_true hrun
    obtain ⟨t, hback, hfailed⟩ := Option.any_eq_true _ _ |>.mp hrun
    exact ⟨s, t, hfront, hdelivered, hback, of_decide_eq_true hfailed⟩
  · have hrun : ((ingress {}).run configured (handedOver ++ overtaken)).any (fun t => t.started.count 1 = 2) = true := by
      decide +kernel
    obtain ⟨t, hrun, htwice⟩ := Option.any_eq_true _ _ |>.mp hrun
    exact ⟨t, hrun, of_decide_eq_true htwice⟩

end BotCord.Ingress
