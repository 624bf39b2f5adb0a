import BotCord.Ingress.Lifecycle

/-!
# What is delivered again

An event goes back to the queue when the runtime of its agent closes a socket, so that it is delivered again over the next one. The socket is remembered per agent and gateway and forgotten per agent and gateway, whichever socket it was that closed, and the events are taken back per agent.
-/

namespace BotCord.Ingress

open Orchestrator

/-! ### The table of sessions -/

theorem takeWhile_sessionKey (a : AgentId) (g : GatewayId) :
    (sessionKey a g).toList.takeWhile (· ≠ ':') = a.text.toList := by
  have hplain : ∀ c ∈ a.text.toList, decide (c ≠ ':') = true := fun c hc => decide_eq_true fun h => a.plain (h ▸ hc)
  rw [sessionKey, String.toList_append, String.toList_append, List.append_assoc, List.takeWhile_append_of_pos hplain]
  exact List.append_nil _

theorem sessionKey_inj {a a' : AgentId} {g g' : GatewayId} (h : sessionKey a g = sessionKey a' g') : a = a' ∧ g = g' := by
  have htext : a.text = a'.text := by
    apply String.toList_injective
    rw [← takeWhile_sessionKey a g, h, takeWhile_sessionKey]
  have hkey : (a.text ++ ":" ++ g).toList = (a'.text ++ ":" ++ g').toList := congrArg String.toList h
  rw [htext, String.toList_append, String.toList_append (t := g')] at hkey
  refine ⟨?_, String.toList_injective (List.append_cancel_left hkey)⟩
  cases a
  cases a'
  cases htext
  rfl

/-- The socket can still carry frames. -/
def Socket.Live (socket : Socket) : Prop := socket.readyState = .connecting ∨ socket.readyState = .opened
deriving Decidable

/-- A session is the socket that was last installed for its key, and that socket stays until it is on its way out. -/
structure Installed (sessions latest : String → Option SocketId) (sockets : SocketId → Option Socket) : Prop where
  last : ∀ key k, sessions key = some k → latest key = some k
  known : ∀ key k, latest key = some k → ∃ x, sockets k = some x ∧ x.key = key
  kept : ∀ key k x, latest key = some k → sockets k = some x → x.Live → sessions key = some k

namespace Installed

variable {sessions latest : String → Option SocketId} {sockets : SocketId → Option Socket} {key : String} {k : SocketId}

theorem modify (h : Installed sessions latest sockets) {f : Socket → Socket} (hkey : ∀ x, (f x).key = x.key)
    (hlive : ∀ x, sockets k = some x → (f x).Live → x.Live) :
    Installed sessions latest (Function.update sockets k ((sockets k).map f)) where
  last := h.last
  known key c hc := by
    obtain ⟨x, hx, hk⟩ := h.known key c hc
    by_cases hck : c = k
    · subst hck
      rw [Function.update_self, hx]
      exact ⟨f x, rfl, (hkey x).trans hk⟩
    · rw [Function.update_of_ne hck]
      exact ⟨x, hx, hk⟩
  kept key c x hc hx hxlive := by
    by_cases hck : c = k
    · subst hck
      rw [Function.update_self] at hx
      obtain ⟨x', hx', rfl⟩ := Option.map_eq_some_iff.mp hx
      exact h.kept key c x' hc hx' (hlive x' hx' hxlive)
    · rw [Function.update_of_ne hck] at hx
      exact h.kept key c x hc hx hxlive

theorem forget (h : Installed sessions latest sockets)
    (hgone : ∀ c x, latest key = some c → sockets c = some x → ¬ x.Live) :
    Installed (Function.update sessions key none) latest sockets where
  last key' c hc := by
    by_cases hkey : key' = key
    · subst hkey
      rw [Function.update_self] at hc
      cases hc
    · rw [Function.update_of_ne hkey] at hc
      exact h.last key' c hc
  known := h.known
  kept key' c x hc hx hlive := by
    by_cases hkey : key' = key
    · subst hkey
      exact absurd hlive (hgone c x hc hx)
    · rw [Function.update_of_ne hkey]
      exact h.kept key' c x hc hx hlive

theorem install (h : Installed sessions latest sockets) (hnew : sockets k = none) (made : Socket) :
    Installed (Function.update sessions made.key (some k)) (Function.update latest made.key (some k))
      (Function.update sockets k (some made)) := by
  have hother : ∀ key c, latest key = some c → c ≠ k := by
    rintro key c hc rfl
    obtain ⟨x, hx, -⟩ := h.known key c hc
    rw [hnew] at hx
    cases hx
  refine ⟨fun key c hc => ?_, fun key c hc => ?_, fun key c x hc hx hlive => ?_⟩
  · by_cases hkey : key = made.key
    · subst hkey
      rwa [Function.update_self] at hc ⊢
    · rw [Function.update_of_ne hkey] at hc ⊢
      exact h.last key c hc
  · by_cases hkey : key = made.key
    · subst hkey
      rw [Function.update_self, Option.some.injEq] at hc
      subst hc
      exact ⟨made, Function.update_self .., rfl⟩
    · rw [Function.update_of_ne hkey] at hc
      rw [Function.update_of_ne (hother key c hc)]
      exact h.known key c hc
  · by_cases hkey : key = made.key
    · subst hkey
      rwa [Function.update_self] at hc ⊢
    · rw [Function.update_of_ne hkey] at hc ⊢
      rw [Function.update_of_ne (hother key c hc)] at hx
      exact h.kept key c x hc hx hlive

end Installed

variable {options : Options} {s : Orchestrator} {id : EventId}

abbrev Orchestrator.SessionsKept (s : Orchestrator) : Prop := Installed s.sessions s.latest s.sockets

def Orchestrator.IsClosed (s : Orchestrator) (socket : SocketId) : Prop := (s.sockets socket).any (·.readyState = .closed) = true
deriving Decidable

theorem sockets_modifySocket (f : Socket → Socket) (k : SocketId) :
    (s.modifySocket id f).sockets k = if k = id then (s.sockets id).map f else s.sockets k := Function.update_apply ..

section Sessions

variable (h : s.SessionsKept)

include h

theorem SessionsKept.closeSession {key : String} {socket : SocketId} (hsession : s.sessions key = some socket) :
    (s.closeSession key socket).SessionsKept := by
  refine Installed.forget (h.modify (fun x => ?_) fun x _ => ?_) fun c x hc hx => ?_
  · split
    · rfl
    · rfl
  · split
    · exact id
    · rintro (hbad | hbad) <;> cases hbad
  · obtain rfl := Option.some.inj ((h.last _ _ hsession).symm.trans hc)
    replace hx : (s.modifySocket socket _).sockets socket = some x := hx
    rw [sockets_modifySocket, if_pos rfl] at hx
    obtain ⟨x', -, rfl⟩ := Option.map_eq_some_iff.mp hx
    split
    · rename_i hclosed
      simp [Socket.Live, hclosed]
    · simp [Socket.Live]

theorem SessionsKept.ensureSession (d : Dispatch) : (s.ensureSession id d).SessionsKept := by
  simp only [Orchestrator.ensureSession]
  split
  · exact h
  · rename_i current hcurrent
    split
    · exact h
    · exact SessionsKept.closeSession h hcurrent

theorem SessionsKept.onMetadata (d : Dispatch) (answer : RuntimeAnswer) : (s.onMetadata options id d answer).SessionsKept := by
  cases answer with
  | ready hasMetadata =>
    cases hasMetadata with
    | true => exact SessionsKept.ensureSession h d
    | false => exact h
  | hubClientError status code =>
    simp only [Orchestrator.onMetadata]
    split
    · exact h
    · exact h
  | _ => exact h

theorem SessionsKept.resume {t : Orchestrator} {d : Dispatch} (hresume : s.resume options id d = some t) : t.SessionsKept := by
  have hsend : ∀ socket, (s.sendFrame id d socket).SessionsKept := fun socket => h.modify (fun _ => rfl) fun _ _ hlive => hlive
  unfold Orchestrator.resume at hresume
  split at hresume
  · cases hresume
  · cases hresume
  · split at hresume
    · cases hresume
    · exact Option.some.inj hresume ▸ h
    · exact Option.some.inj hresume ▸ h
  · exact Option.some.inj hresume ▸ h
  · split at hresume
    · cases hresume
    · obtain rfl := Option.some.inj hresume
      split
      · exact hsend _
      · exact h
    · exact Option.some.inj hresume ▸ h
  · exact Option.some.inj hresume ▸ h

theorem SessionsKept.onClose {socket : SocketId} {x : Socket} 
    (hown : ∀ k ∈ s.sessions x.key, k = socket) (reason : String) : (s.onClose socket x reason).SessionsKept := by
  refine Installed.forget (h.modify (fun _ => rfl) fun _ _ hlive => ?_) fun c y hc hy hlive => ?_
  · rcases hlive with hlive | hlive <;> cases hlive
  · replace hy : (s.modifySocket socket _).sockets c = some y := hy
    rw [sockets_modifySocket] at hy
    split at hy
    · obtain ⟨x', -, rfl⟩ := Option.map_eq_some_iff.mp hy
      rcases hlive with hlive | hlive <;> cases hlive
    · rename_i hcs
      exact hcs (hown c (h.kept _ c y hc hy hlive))

theorem SessionsKept.dispatchEvent : (s.dispatchEvent id).SessionsKept := by
  unfold Orchestrator.dispatchEvent
  split
  · exact h
  · split
    · exact h
    · split
      · exact h
      · split <;> exact h

theorem SessionsKept.onRuntimeFrame (deliveryId : DeliveryId) (frame : RuntimeFrame) :
    (s.onRuntimeFrame deliveryId frame).SessionsKept := by
  cases frame with
  | inboundAck id accepted errorCode => cases accepted <;> exact h
  | outboundComplete reply text =>
    simp only [Orchestrator.onRuntimeFrame, Orchestrator.onComplete]
    split
    · exact h
    · split
      · exact h
      · split <;> exact h
  | outboundError reply code message =>
    simp only [Orchestrator.onRuntimeFrame]
    split
    · exact h
    · split <;> exact h
  | _ => exact h

theorem SessionsKept.ingest {gatewayId : GatewayId} {message : InboundMessage} {providerEventId : String} :
    (s.ingest gatewayId message providerEventId id).SessionsKept := by
  unfold Orchestrator.ingest
  split
  · exact h
  · split
    · exact h
    · split
      · exact h
      · exact SessionsKept.dispatchEvent h

end Sessions

/-! ### Carriers -/

/-- An event that is about to be sent was handed to the socket that is waited for; before that, an event that is being delivered was not handed to a socket by this process. -/
def Phase.Carried (status : Option EventStatus) (carrier : Option SocketId) : Phase → Prop
  | .sending k => carrier = some k
  | .unsent => carrier = none
  | _ => status = some .delivering → carrier = none

def Phase.isEarly : Phase → Bool
  | .sending _ | .unsent => false
  | _ => true

theorem Phase.carried_iff_of_early {phase : Phase} (h : phase.isEarly = true) {status : Option EventStatus}
    {carrier : Option SocketId} : phase.Carried status carrier ↔ (status = some .delivering → carrier = none) := by
  cases phase with
  | sending | unsent => cases h
  | _ => rfl

def Carried (s : Orchestrator) (id : EventId) : Prop :=
  ∀ d ∈ s.dispatches id, d.phase.Carried (s.store.statusOf id) (s.carrier id)

/-- What may take an event back: its socket is gone, or its own dispatch cannot send it over the socket. -/
def TakenBack (s : Orchestrator) (a : Action) (t : Orchestrator) (id : EventId) : Prop :=
  ∀ k ∈ s.carrier id, t.IsClosed k ∨
    ((a = .resume id ∨ ∃ error, a = .sendThrows id error) ∧ ∃ d ∈ s.dispatches id, d.phase = .sending k)

structure Handled (s : Orchestrator) (a : Action) (t : Orchestrator) (id : EventId) : Prop where
  carried : Carried t id
  takenBack : s.store.statusOf id = some .delivering → t.store.statusOf id = some .queued → TakenBack s a t id

structure Calm (status status' : Option EventStatus) : Prop where
  begun : status' = some .delivering → status = some .delivering
  kept : status = some .delivering → status' ≠ some .queued

theorem Calm.refl (status : Option EventStatus) : Calm status status := by
  constructor
  · exact id
  · rintro rfl
    decide

variable {status : EventStatus}

theorem Calm.over (o : Option EventStatus) (h : status.Terminal) : Calm o (o.map fun _ => status) := by
  have hne : status ≠ .delivering ∧ status ≠ .queued := by rcases h with rfl | rfl | rfl <;> decide
  cases o with
  | none => exact .refl none
  | some => constructor <;> simp [hne]

structure Leaves (s t : Orchestrator) (x : EventId) : Prop where
  dispatch : t.dispatches x = s.dispatches x ∨ t.dispatches x = none
  carrier : t.carrier x = s.carrier x
  status : Calm (s.store.statusOf x) (t.store.statusOf x)

variable {t : Orchestrator} {x : EventId} {a : Action}

theorem Carried.leaves (h : Carried s x) (hleaves : Leaves s t x) : Carried t x := by
  intro d hd
  rcases hleaves.dispatch with hsame | hnone
  · have hfits := h d (hsame ▸ hd)
    rw [hleaves.carrier]
    cases hphase : d.phase with
    | sending k => rwa [hphase] at hfits
    | unsent => rwa [hphase] at hfits
    | _ =>
      rw [hphase] at hfits
      exact fun hstatus => hfits (hleaves.status.begun hstatus)
  · rw [hnone] at hd
    cases hd

theorem Leaves.handled (hleaves : Leaves s t x) (h : Carried s x) (a : Action) :
    Handled s a t x where
  carried := h.leaves hleaves
  takenBack hdelivering hqueued := absurd hqueued (hleaves.status.kept hdelivering)

theorem handled_of_rest (h : Carried s x)
    (hevents : t.store.events = s.store.events) (hdispatches : t.dispatches = s.dispatches)
    (hcarrier : t.carrier = s.carrier) : Handled s a t x := by
  have hstatus : t.store.statusOf x = s.store.statusOf x := by rw [Store.statusOf, Store.getEvent, hevents]; rfl
  exact Leaves.handled ⟨.inl (congrFun hdispatches x), congrFun hcarrier x, hstatus ▸ .refl _⟩ h a

theorem handled_of_same (id : EventId) (h : Carried s x) (hid : Carried t id)
    (hstatus : t.store.statusOf x = s.store.statusOf x) (hcarrier : t.carrier x = s.carrier x)
    (hdispatch : x ≠ id → t.dispatches x = s.dispatches x) : Handled s a t x := by
  by_cases hx : x = id
  · refine ⟨hx ▸ hid, fun hdelivering hqueued => ?_⟩
    rw [hstatus, hdelivering] at hqueued
    cases hqueued
  · exact Leaves.handled ⟨.inl (hdispatch hx), hcarrier, hstatus ▸ .refl _⟩ h a

theorem dispatches_setDispatch (dispatch : Option Dispatch) (x : EventId) :
    (s.setDispatch id dispatch).dispatches x = if x = id then dispatch else s.dispatches x := Function.update_apply ..

variable {patch : InboundEvent → InboundEvent}

theorem statusOf_updateEvent {hid : ∀ e, (patch e).eventId = e.eventId}
    (hpatch : ∀ e, (patch e).status = status) (x : EventId) :
    (s.updateEvent id patch hid).store.statusOf x =
      if x = id then (s.store.statusOf id).map fun _ => status else s.store.statusOf x := by
  refine (congrArg Life.status (life_updateEvent hpatch x)).trans ?_
  split <;> rfl

theorem calm_updateEvent {hid : ∀ e, (patch e).eventId = e.eventId}
    (hpatch : ∀ e, (patch e).status = status) (hover : status.Terminal) (x : EventId) :
    Calm (s.store.statusOf x) ((s.updateEvent id patch hid).store.statusOf x) := by
  rw [statusOf_updateEvent hpatch]
  split
  · rename_i hx
    exact hx ▸ Calm.over _ hover
  · exact .refl _

theorem calm_failEvent (lastError : String) :
    ∀ x, Calm (s.store.statusOf x) ((s.failEvent id lastError).store.statusOf x) :=
  calm_updateEvent (fun _ => rfl) (.inr (.inl rfl))

theorem leaves_giveUp (lastError : String) (x : EventId) : Leaves s (s.giveUp id lastError) x where
  dispatch := by
    rw [giveUp, dispatches_setDispatch]
    split
    · exact .inr rfl
    · exact .inl rfl
  carrier := rfl
  status := calm_failEvent lastError x

section Steps

variable (h : ∀ x, Carried s x)

include h

variable {d : Dispatch}

theorem handled_waitFor {u : Orchestrator} {phase : Phase} (hd : s.dispatches id = some d)
    (hearly : d.phase.isEarly = true) (hphase : phase.isEarly = true) (hsame : u.store = s.store)
    (hcarrier : u.carrier = s.carrier) (hdispatches : u.dispatches = s.dispatches) (x : EventId) :
    Handled s a (u.waitFor id d phase) x := by
  have hstatus : (u.waitFor id d phase).store.statusOf = s.store.statusOf := congrArg Store.statusOf hsame
  refine handled_of_same id (h x) (fun d' hd' => ?_) (congrFun hstatus x) (congrFun hcarrier x) fun hx => ?_
  · rw [waitFor, dispatches_setDispatch, if_pos rfl, Option.mem_some_iff] at hd'
    subst hd'
    have hcarried := (Phase.carried_iff_of_early hearly).mp (h id d hd)
    rw [Phase.carried_iff_of_early hphase, hstatus]
    exact fun hdelivering => (congrFun hcarrier id).trans (hcarried hdelivering)
  · rw [waitFor, dispatches_setDispatch, if_neg hx, hdispatches]

theorem handled_giveBack (lastError : String)
    (hown : s.store.statusOf id = some .delivering → TakenBack s a (s.giveBack options id d lastError) id) (x : EventId) :
    Handled s a (s.giveBack options id d lastError) x := by
  by_cases hx : x = id
  · subst hx
    refine ⟨fun d' hd' => ?_, fun hdelivering _ => hown hdelivering⟩
    rw [giveBack, dispatches_setDispatch, if_pos rfl] at hd'
    cases hd'
  · have hstatus : (s.giveBack options id d lastError).store.statusOf x = s.store.statusOf x :=
      Store.statusOf_updateEvent_of_ne hx
    have hleaves : Leaves s (s.giveBack options id d lastError) x := by
      refine ⟨.inl ?_, rfl, hstatus ▸ .refl _⟩
      rw [giveBack, dispatches_setDispatch, if_neg hx]
      rfl
    exact hleaves.handled (h x) a

/-- A dispatch that has not come to the sending yet gives back an event that was not handed over. -/
theorem handled_giveBack_of_early (lastError : String) (hd : s.dispatches id = some d)
    (hearly : d.phase.isEarly = true) (x : EventId) : Handled s a (s.giveBack options id d lastError) x := by
  refine handled_giveBack h lastError (fun hdelivering k hk => ?_) x
  rw [Option.mem_def, (Phase.carried_iff_of_early hearly).mp (h id d hd) hdelivering] at hk
  cases hk

theorem handled_ensureSession (hd : s.dispatches id = some d) (hphase : d.phase = .metadata) (x : EventId) :
    Handled s a (s.ensureSession id d) x := by
  have hearly : d.phase.isEarly = true := by rw [hphase]; rfl
  simp only [ensureSession]
  split
  · exact handled_waitFor h hd hearly (by rfl) rfl rfl rfl x
  · rename_i current hcurrent
    split
    · exact handled_waitFor h hd hearly (by rfl) rfl rfl rfl x
    · exact handled_waitFor h (u := s.closeSession _ current) hd hearly (by rfl) rfl rfl rfl x

theorem handled_onMetadata (hd : s.dispatches id = some d) (hphase : d.phase = .metadata)
    (answer : RuntimeAnswer) (x : EventId) : Handled s a (s.onMetadata options id d answer) x := by
  have hearly : d.phase.isEarly = true := by rw [hphase]; rfl
  cases answer with
  | failed | deleted => exact (leaves_giveUp _ x).handled (h x) a
  | ready hasMetadata =>
    cases hasMetadata with
    | true => exact handled_ensureSession h hd hphase x
    | false => exact handled_giveBack_of_early h _ hd hearly x
  | other | error => exact handled_giveBack_of_early h _ hd hearly x
  | hubClientError status code =>
    simp only [onMetadata]
    split
    · exact (leaves_giveUp _ x).handled (h x) a
    · exact handled_giveBack_of_early h _ hd hearly x

theorem handled_deliver (d : Dispatch) (x : EventId) : Handled s a (s.deliver id d) x := by
  have hlife : ∀ x, (s.updateEvent id fun e =>
      { e with status := .delivering, attemptCount := d.event.attemptCount + 1, nextAttemptAt := none }).store.statusOf x =
        if x = id then (s.store.statusOf id).map fun _ => .delivering else s.store.statusOf x :=
    statusOf_updateEvent fun _ => rfl
  by_cases hx : x = id
  · subst hx
    refine ⟨fun d' hd' => ?_, fun _ hqueued => ?_⟩
    · simp only [deliver, waitFor, dispatches_setDispatch, if_true, Option.mem_some_iff] at hd'
      subst hd'
      have hcarrier : (s.deliver x d).carrier x = s.sessions (sessionKey d.connection.agentId d.connection.id) :=
        Function.update_self ..
      rw [hcarrier]
      cases hsession : s.sessions (sessionKey d.connection.agentId d.connection.id) with
      | none => rfl
      | some k => rfl
    · replace hqueued := (hlife x).symm.trans hqueued
      rw [if_pos rfl] at hqueued
      obtain ⟨_, -, hbad⟩ := Option.map_eq_some_iff.mp hqueued
      cases hbad
  · have hleaves : Leaves s (s.deliver id d) x := by
      refine ⟨.inl ?_, Function.update_of_ne hx .., ?_⟩
      · simp only [deliver, waitFor, dispatches_setDispatch, if_neg hx]
        rfl
      · have hsame : (s.deliver id d).store.statusOf x = s.store.statusOf x := (hlife x).trans (if_neg hx)
        rw [hsame]
        exact .refl _
    exact hleaves.handled (h x) a

theorem handled_resume {t : Orchestrator} (hd : s.dispatches id = some d)
    (hresume : s.resume options id d = some t) (x : EventId) : Handled s (.resume id) t x := by
  unfold resume at hresume
  split at hresume
  · cases hresume
  · cases hresume
  · rename_i hphase
    have hearly : d.phase.isEarly = true := by rw [hphase]; rfl
    split at hresume
    · cases hresume
    · exact Option.some.inj hresume ▸ handled_waitFor h hd hearly (by rfl) rfl rfl rfl x
    · exact Option.some.inj hresume ▸ handled_giveBack_of_early h _ hd hearly x
  · exact Option.some.inj hresume ▸ handled_deliver h d x
  · rename_i k hphase
    have hcarried := h id d hd
    rw [hphase] at hcarried
    have hown : ∀ t, TakenBack s (.resume id) t id := by
      intro t c hc
      obtain rfl := Option.some.inj (hcarried.symm.trans hc)
      exact .inr ⟨.inl rfl, d, hd, hphase⟩
    split at hresume
    · cases hresume
    · obtain rfl := Option.some.inj hresume
      split
      · have hleaves : Leaves s (s.sendFrame id d k) x := by
          refine ⟨?_, rfl, .refl _⟩
          rw [sendFrame, dispatches_setDispatch]
          split
          · exact .inr rfl
          · exact .inl rfl
        exact hleaves.handled (h x) _
      · exact handled_giveBack h _ (fun _ => hown _) x
    · exact Option.some.inj hresume ▸ handled_giveBack h _ (fun _ => hown _) x
  · rename_i hphase
    have hcarried := h id d hd
    rw [hphase] at hcarried
    refine Option.some.inj hresume ▸ handled_giveBack h _ (fun _ k hk => ?_) x
    rw [Option.mem_def, hcarried] at hk
    cases hk

end Steps

theorem leaves_of_calm (hdispatches : t.dispatches = s.dispatches)
    (hcarrier : t.carrier = s.carrier) (hcalm : Calm (s.store.statusOf x) (t.store.statusOf x)) : Leaves s t x :=
  ⟨.inl (congrFun hdispatches x), congrFun hcarrier x, hcalm⟩

theorem Leaves.refl (s : Orchestrator) (x : EventId) : Leaves s s x := leaves_of_calm rfl rfl (.refl _)

theorem leaves_updateEvent {hid : ∀ e, (patch e).eventId = e.eventId}
    (hpatch : ∀ e, (patch e).status = status) (hover : status.Terminal) (x : EventId) :
    Leaves s (s.updateEvent id patch hid) x := leaves_of_calm rfl rfl (calm_updateEvent hpatch hover x)

theorem leaves_ensureDeliveryFor (reply : Reply) (deliveryId : DeliveryId) (x : EventId) :
    Leaves s (s.ensureDeliveryFor reply deliveryId).1 x := by
  have hstatus : (s.ensureDeliveryFor reply deliveryId).1.store.statusOf x = s.store.statusOf x :=
    congrArg Life.status (life_ensureDeliveryFor reply deliveryId x)
  exact leaves_of_calm rfl rfl (hstatus ▸ .refl _)

theorem leaves_onRuntimeFrame (frame : RuntimeFrame) (deliveryId : DeliveryId) (x : EventId) :
    Leaves s (s.onRuntimeFrame deliveryId frame) x := by
  have hfailed : EventStatus.Terminal .failed := .inr (.inl rfl)
  cases frame with
  | inboundAck id accepted errorCode =>
    simp only [onRuntimeFrame]
    split
    · exact .refl s x
    · exact leaves_updateEvent (fun _ => by rfl) hfailed x
  | outboundStart reply => exact leaves_ensureDeliveryFor reply deliveryId x
  | outboundDelta reply delta => exact leaves_of_calm rfl rfl (leaves_ensureDeliveryFor reply deliveryId x).status
  | outboundComplete reply text =>
    simp only [onRuntimeFrame, onComplete]
    split
    · exact .refl s x
    · split
      · exact .refl s x
      · split
        · exact leaves_updateEvent (fun _ => by rfl) hfailed x
        · exact leaves_of_calm rfl rfl (leaves_ensureDeliveryFor reply deliveryId x).status
  | outboundError reply code message =>
    have hleaves : Leaves s (s.updateEvent reply.eventId fun e =>
        { e with status := .failed, lastError := some ("runtime_error:" ++ code) }) x :=
      leaves_updateEvent (fun _ => by rfl) hfailed x
    simp only [onRuntimeFrame]
    split
    · exact .refl s x
    · split
      · exact leaves_of_calm rfl rfl hleaves.status
      · exact hleaves
  | outboundTyping | heartbeat => exact .refl s x

theorem leaves_onSent (send : Send) (result : Except String (Option String)) (x : EventId) :
    Leaves s (s.onSent id send result) x := by
  cases result with
  | ok providerMessageId =>
    have hleaves : Leaves s (s.updateEvent id fun e => { e with status := .delivered }) x :=
      leaves_updateEvent (fun _ => by rfl) (.inl rfl) x
    simp only [onSent]
    split
    · exact leaves_of_calm rfl rfl (.refl _)
    · exact leaves_of_calm rfl rfl hleaves.status
  | error text =>
    have hleaves : Leaves s (s.updateEvent id fun e =>
        { e with status := .failed, lastError := some ("provider_send_failed: " ++ text) }) x :=
      leaves_updateEvent (fun _ => by rfl) (.inr (.inl rfl)) x
    exact leaves_of_calm rfl rfl hleaves.status

/-! ### Closes and new dispatches -/

theorem isClosed_onClose {socket : SocketId} {x : Socket} (hx : s.sockets socket = some x) (reason : String) {k : SocketId}
    (hk : k = socket ∨ s.IsClosed k) : (s.onClose socket x reason).IsClosed k := by
  have hsockets : (s.onClose socket x reason).sockets k =
      if k = socket then (s.sockets socket).map fun x => { x with readyState := .closed } else s.sockets k :=
    sockets_modifySocket _ k
  rw [Orchestrator.IsClosed, hsockets]
  split
  · rw [hx]
    rfl
  · rename_i hne
    exact hk.resolve_left hne

theorem handled_onClose {socket : SocketId} {x : Socket} (h : ∀ id, Carried s id) (hx : s.sockets socket = some x)
    (hown : ∀ e ∈ s.store.events, e.agentId = x.agentId → e.status = .delivering →
      ∀ k ∈ s.carrier e.eventId, k = socket ∨ s.IsClosed k) (reason : String) (id : EventId) :
    Handled s a (s.onClose socket x reason) id := by
  have hget : ∀ e', (s.onClose socket x reason).store.getEvent id = some e' → ∃ e, s.store.getEvent id = some e ∧
      (if e.status = .delivering ∧ e.agentId = x.agentId then
        { e with status := .queued, lastError := some ("runtime_closed:" ++ reason), updatedAt := s.clock } else e) = e' :=
    fun e' he' => Option.map_eq_some_iff.mp ((getEvent_onRuntimeClose x.agentId reason id).symm.trans he')
  refine ⟨fun d hd => ?_, fun hdelivering hqueued k hk => .inl ?_⟩
  · have hcarried := h id d hd
    have hbegun : (s.onClose socket x reason).store.statusOf id = some .delivering →
        s.store.statusOf id = some .delivering := by
      intro hdelivering
      obtain ⟨e', he', hstatus⟩ := Option.map_eq_some_iff.mp hdelivering
      obtain ⟨e, he, rfl⟩ := hget e' he'
      split at hstatus
      · cases hstatus
      · exact life_status.mpr ⟨e, he, hstatus⟩
    cases hphase : d.phase with
    | sending => rwa [hphase] at hcarried
    | unsent => rwa [hphase] at hcarried
    | _ =>
      rw [hphase] at hcarried
      exact fun hdelivering => hcarried (hbegun hdelivering)
  · obtain ⟨e', he', hstatus'⟩ := Option.map_eq_some_iff.mp hqueued
    obtain ⟨e, he, rfl⟩ := hget e' he'
    have hstatus : e.status = .delivering := by
      rw [Store.statusOf, he] at hdelivering
      exact Option.some.inj hdelivering
    split at hstatus'
    · rename_i hclosed
      obtain ⟨hmem, rfl⟩ := Keyed.get?_eq_some_iff.mp he
      exact isClosed_onClose hx reason (hown e hmem hclosed.2 hstatus k hk)
    · rw [hstatus] at hstatus'
      cases hstatus'

theorem handled_dispatchEvent (h : ∀ x, Carried s x)
    (hfresh : s.dispatches id = none → s.store.statusOf id = some .delivering → s.carrier id = none) (x : EventId) :
    Handled s a (s.dispatchEvent id) x := by
  unfold dispatchEvent
  split
  · exact (Leaves.refl s x).handled (h x) a
  · rename_i hfree
    rw [not_not] at hfree
    split
    · exact (Leaves.refl s x).handled (h x) a
    · split
      · exact (Leaves.refl s x).handled (h x) a
      · split
        · have hleaves : Leaves s (s.failEvent id "gateway_not_found") x := leaves_of_calm rfl rfl (calm_failEvent _ x)
          exact hleaves.handled (h x) a
        · refine handled_of_same id (h x) (fun d hd => ?_) rfl rfl fun hx => ?_
          · rw [dispatches_setDispatch, if_pos rfl, Option.mem_some_iff] at hd
            subst hd
            exact hfresh hfree
          · rw [dispatches_setDispatch, if_neg hx]

theorem handled_ingest {gatewayId : GatewayId} {message : InboundMessage} {providerEventId : String}
    (h : ∀ x, Carried s x) (hnew : s.Unknown id) (x : EventId) :
    Handled s a (s.ingest gatewayId message providerEventId id) x := by
  unfold ingest
  split
  · exact (Leaves.refl s x).handled (h x) a
  · split
    · exact (Leaves.refl s x).handled (h x) a
    · split
      · exact (Leaves.refl s x).handled (h x) a
      · rename_i store hinsert
        have hstatus : ∀ x, (store.appendDedupe gatewayId providerEventId).statusOf x =
            if x = id then some .queued else s.store.statusOf x :=
          Store.statusOf_insertEvent hinsert gatewayId providerEventId
        have hcalm : ∀ x, Leaves s { s with store := store.appendDedupe gatewayId providerEventId } x := by
          intro x
          refine leaves_of_calm rfl rfl ?_
          rw [hstatus]
          split
          · rename_i hx
            have hnone : s.store.statusOf x = none := by rw [hx, Store.statusOf, hnew.1]; rfl
            rw [hnone]
            constructor <;> simp
          · exact .refl _
        generalize hmade : ({ s with store := store.appendDedupe gatewayId providerEventId } : Orchestrator) = made at hcalm
        have hfresh : made.dispatches id = none → made.store.statusOf id = some .delivering → made.carrier id = none := by
          intro _ hdelivering
          rw [← hmade, hstatus, if_pos rfl] at hdelivering
          cases hdelivering
        have hhandled : Handled made a (made.dispatchEvent id) x :=
          handled_dispatchEvent (fun x => (h x).leaves (hcalm x)) hfresh x
        subst hmade
        refine ⟨hhandled.carried, fun hdelivering hqueued => hhandled.takenBack ?_ hqueued⟩
        have hx : x ≠ id := by
          rintro rfl
          rw [Store.statusOf, hnew.1] at hdelivering
          cases hdelivering
        rw [hstatus, if_neg hx]
        exact hdelivering

/-! ### Runs -/

/-- The close of a socket finds it installed, or nothing, and carrying every event of its agent that is being delivered; and the retry loop does not begin with an event that is being delivered. -/
def KeepsDeliveries (options : Options) (s : Orchestrator) : Action → Prop
  | .closes socket _ => ∀ x ∈ s.sockets socket, (∀ k ∈ s.sessions x.key, k = socket) ∧
      ∀ e ∈ s.store.events, e.agentId = x.agentId → e.status = .delivering →
        ∀ k ∈ s.carrier e.eventId, k = socket ∨ s.IsClosed k
  | .retryNext => ∀ r ∈ s.retry, ∀ event ∈ r.rest.head?, Retries options s r event →
      s.dispatches event.eventId = none → s.store.statusOf event.eventId = some .delivering →
        s.carrier event.eventId = none
  | _ => True

instance (a : Action) : Decidable (KeepsDeliveries options s a) := by
  unfold KeepsDeliveries
  split <;> infer_instance

theorem handled_retryNext {r : Retry} (h : ∀ x, Carried s x) (hr : s.retry = some r)
    (hkeeps : KeepsDeliveries options s .retryNext) (hnext : s.retryNext options r = some t) (x : EventId) :
    Handled s .retryNext t x := by
  obtain ⟨retry, rfl⟩ | ⟨event, retry, hretries, rfl⟩ := retryNext_cases hnext
  · exact handled_of_rest (h x) rfl rfl rfl
  · have hhandled : Handled { s with retry } .retryNext ({ s with retry }.dispatchEvent event.eventId) x :=
      handled_dispatchEvent (s := { s with retry }) h (hkeeps r hr event hretries.1 hretries) x
    exact ⟨hhandled.carried, hhandled.takenBack⟩

theorem handled_step (h : ∀ x, Carried s x) (hkeeps : KeepsDeliveries options s a)
    (hstep : (ingress options).step s a = some t) (x : EventId) : Handled s a t x := by
  cases a with
  | tick now =>
    obtain ⟨-, hstep⟩ := Option.ite_none_right_eq_some.mp hstep
    exact Option.some.inj hstep ▸ handled_of_rest (h x) rfl rfl rfl
  | configure connections providers =>
    obtain rfl := Option.some.inj hstep
    exact handled_of_rest (h x) rfl rfl rfl
  | ingest gatewayId message providerEventId id =>
    obtain ⟨hnew, hstep⟩ := Option.ite_none_right_eq_some.mp hstep
    exact Option.some.inj hstep ▸ handled_ingest h hnew x
  | retryPending force =>
    obtain rfl := Option.some.inj hstep
    unfold retryPending
    split
    · exact handled_of_rest (h x) rfl rfl rfl
    · exact handled_of_rest (h x) rfl rfl rfl
  | retryNext =>
    obtain ⟨r, hr, hnext⟩ := Option.bind_eq_some_iff.mp hstep
    exact handled_retryNext h hr hkeeps hnext x
  | metadata id answer =>
    obtain ⟨d, hd, rfl⟩ := Option.map_eq_some_iff.mp hstep
    obtain ⟨hd, hphase⟩ := Option.filter_eq_some_iff.mp hd
    exact handled_onMetadata h hd (of_decide_eq_true hphase) answer x
  | connected id socket readyState =>
    obtain ⟨-, hstep⟩ := Option.ite_none_right_eq_some.mp hstep
    obtain ⟨d, hd, rfl⟩ := Option.map_eq_some_iff.mp hstep
    obtain ⟨hd, hphase⟩ := Option.filter_eq_some_iff.mp hd
    have hearly : d.phase.isEarly = true := by rw [of_decide_eq_true hphase]; rfl
    refine handled_of_same id (h x) (fun d' hd' => ?_) rfl rfl fun hx => Function.update_of_ne hx ..
    replace hd' : d' ∈ Function.update s.dispatches id (some { d with phase := .opening socket }) id := hd'
    rw [Function.update_self, Option.mem_some_iff] at hd'
    subst hd'
    exact (Phase.carried_iff_of_early hearly).mp (h id d hd)
  | connectFailed id error =>
    obtain ⟨d, hd, rfl⟩ := Option.map_eq_some_iff.mp hstep
    obtain ⟨hd, hphase⟩ := Option.filter_eq_some_iff.mp hd
    have hearly : d.phase.isEarly = true := by rw [of_decide_eq_true hphase]; rfl
    exact handled_giveBack_of_early h _ hd hearly x
  | resume id =>
    obtain ⟨d, hd, hresume⟩ := Option.bind_eq_some_iff.mp hstep
    exact handled_resume h hd hresume x
  | sendThrows id error =>
    obtain ⟨d, hd, rfl⟩ := Option.map_eq_some_iff.mp hstep
    obtain ⟨hd, hphase⟩ := Option.filter_eq_some_iff.mp hd
    refine handled_giveBack h _ (fun _ k hk => .inr ⟨.inr ⟨error, rfl⟩, d, hd, ?_⟩) x
    have hcarried := h id d hd
    cases hp : d.phase with
    | sending c =>
      rw [hp] at hcarried
      rw [Option.some.inj (hcarried.symm.trans hk)]
    | _ => rw [hp] at hphase; cases hphase
  | opens | closing | errors | closeSession =>
    obtain ⟨_, -, rfl⟩ := Option.map_eq_some_iff.mp hstep
    exact handled_of_rest (h x) rfl rfl rfl
  | closes socket reason =>
    obtain ⟨y, hy, rfl⟩ := Option.map_eq_some_iff.mp hstep
    obtain ⟨hy, -⟩ := Option.filter_eq_some_iff.mp hy
    exact handled_onClose h hy (hkeeps y hy).2 reason x
  | frame socket frame deliveryId =>
    obtain ⟨-, hstep⟩ := Option.ite_none_right_eq_some.mp hstep
    exact Option.some.inj hstep ▸ (leaves_onRuntimeFrame frame deliveryId x).handled (h x) _
  | sent id result =>
    obtain ⟨send, -, rfl⟩ := Option.map_eq_some_iff.mp hstep
    exact (leaves_onSent send result x).handled (h x) _
  | touched id =>
    obtain ⟨_, -, rfl⟩ := Option.map_eq_some_iff.mp hstep
    exact handled_of_rest (h x) rfl rfl rfl

theorem SessionsKept.step (h : s.SessionsKept) (hkeeps : KeepsDeliveries options s a)
    (hstep : (ingress options).step s a = some t) : t.SessionsKept := by
  cases a with
  | tick now =>
    obtain ⟨-, hstep⟩ := Option.ite_none_right_eq_some.mp hstep
    exact Option.some.inj hstep ▸ h
  | configure connections providers => exact Option.some.inj hstep ▸ h
  | ingest gatewayId message providerEventId id =>
    obtain ⟨-, hstep⟩ := Option.ite_none_right_eq_some.mp hstep
    exact Option.some.inj hstep ▸ SessionsKept.ingest h
  | retryPending force =>
    obtain rfl := Option.some.inj hstep
    unfold retryPending
    split <;> exact h
  | retryNext =>
    obtain ⟨r, -, hnext⟩ := Option.bind_eq_some_iff.mp hstep
    obtain ⟨retry, rfl⟩ | ⟨event, retry, -, rfl⟩ := retryNext_cases hnext
    · exact h
    · exact SessionsKept.dispatchEvent h
  | metadata id answer =>
    obtain ⟨d, -, rfl⟩ := Option.map_eq_some_iff.mp hstep
    exact SessionsKept.onMetadata h d answer
  | connected id socket readyState =>
    obtain ⟨hnew, hstep⟩ := Option.ite_none_right_eq_some.mp hstep
    obtain ⟨d, -, rfl⟩ := Option.map_eq_some_iff.mp hstep
    exact h.install hnew { agentId := d.connection.agentId, gatewayId := d.connection.id, readyState, ready := _ }
  | connectFailed | touched =>
    obtain ⟨_, -, rfl⟩ := Option.map_eq_some_iff.mp hstep
    exact h
  | sent id result =>
    obtain ⟨send, -, rfl⟩ := Option.map_eq_some_iff.mp hstep
    cases result with
    | ok providerMessageId =>
      simp only [onSent]
      split <;> exact h
    | error text => exact h
  | resume id =>
    obtain ⟨d, -, hresume⟩ := Option.bind_eq_some_iff.mp hstep
    exact SessionsKept.resume h hresume
  | sendThrows id error =>
    obtain ⟨d, -, rfl⟩ := Option.map_eq_some_iff.mp hstep
    exact h
  | opens socket =>
    obtain ⟨x, hx, rfl⟩ := Option.map_eq_some_iff.mp hstep
    obtain ⟨hx, hconnecting⟩ := Option.filter_eq_some_iff.mp hx
    refine h.modify (fun _ => rfl) fun x' hx' _ => .inl ?_
    obtain rfl := Option.some.inj (hx.symm.trans hx')
    exact of_decide_eq_true hconnecting
  | closing socket =>
    obtain ⟨_, -, rfl⟩ := Option.map_eq_some_iff.mp hstep
    refine h.modify (fun _ => rfl) fun _ _ hlive => ?_
    rcases hlive with hlive | hlive <;> cases hlive
  | errors socket error =>
    obtain ⟨_, -, rfl⟩ := Option.map_eq_some_iff.mp hstep
    refine h.modify (fun x => ?_) fun x _ => ?_
    · split <;> rfl
    · split <;> exact fun hlive => hlive
  | closeSession key =>
    obtain ⟨socket, hsession, rfl⟩ := Option.map_eq_some_iff.mp hstep
    exact SessionsKept.closeSession h hsession
  | closes socket reason =>
    obtain ⟨y, hy, rfl⟩ := Option.map_eq_some_iff.mp hstep
    obtain ⟨hy, -⟩ := Option.filter_eq_some_iff.mp hy
    exact SessionsKept.onClose h (hkeeps y hy).1 reason
  | frame socket frame deliveryId =>
    obtain ⟨-, hstep⟩ := Option.ite_none_right_eq_some.mp hstep
    exact Option.some.inj hstep ▸ SessionsKept.onRuntimeFrame h deliveryId frame

/-- In every run whose closes find their socket installed and alone with the events of its agent, and which does not begin with an event that is being delivered, the session of an agent and a gateway is the socket that was last opened for them as long as that socket lives, and an event that was handed to a socket is taken back only when that socket has closed or the frame cannot be sent over it. -/
theorem redelivered_when_lost {start : Orchestrator} {actions : List Action} (hstart : Idle start)
    (hmeets : (ingress options).Meets (KeepsDeliveries options) start actions)
    (hrun : (ingress options).run start actions = some s) :
    (∀ agentId gatewayId k, s.sessions (sessionKey agentId gatewayId) = some k →
      s.latest (sessionKey agentId gatewayId) = some k ∧
        ∃ x, s.sockets k = some x ∧ x.agentId = agentId ∧ x.gatewayId = gatewayId) ∧
      (∀ agentId gatewayId k, s.latest (sessionKey agentId gatewayId) = some k → ∀ x ∈ s.sockets k, x.Live →
        s.sessions (sessionKey agentId gatewayId) = some k) ∧
      ∀ a t, KeepsDeliveries options s a → (ingress options).step s a = some t → ∀ id,
        s.store.statusOf id = some .delivering → t.store.statusOf id = some .queued → TakenBack s a t id := by
  have hinstalled : start.SessionsKept := by
    constructor <;> simp [hstart.sessions, hstart.latest]
  have hcarried : ∀ id, Carried start id := by
    intro id d hd
    rw [hstart.dispatches] at hd
    cases hd
  obtain ⟨hkept, hcarried⟩ := (ingress options).run_invariant_of_meets
    (P := fun s => s.SessionsKept ∧ ∀ id, Carried s id)
    (fun s a t h hkeeps hstep => ⟨SessionsKept.step h.1 hkeeps hstep, fun id => (handled_step h.2 hkeeps hstep id).carried⟩)
    ⟨hinstalled, hcarried⟩ hmeets hrun
  refine ⟨fun agentId gatewayId k hk => ?_, fun agentId gatewayId k hk x hx hlive => hkept.kept _ k x hk hx hlive,
    fun a t hkeeps hstep id => (handled_step hcarried hkeeps hstep id).takenBack⟩
  have hlast := hkept.last _ k hk
  obtain ⟨x, hx, hkey⟩ := hkept.known _ k hlast
  obtain ⟨hagent, hgateway⟩ := sessionKey_inj hkey
  exact ⟨hlast, x, hx, hagent, hgateway⟩

/-- The socket of the event closes, the event is due again and is delivered over the next one. -/
def reconnected : List Action :=
  [.closes 7 "code=1006", .tick 1000, .retryPending false, .retryNext, .metadata 1 (.ready true), .connected 1 8 .opened,
    .resume 1, .resume 1, .resume 1]

/-- The socket is replaced while it is closing, and closes after the event was delivered over the next one. -/
def replaced : List Action :=
  [.closing 7, .ingest "gw" message "up_2" 2, .metadata 2 (.ready true), .connected 2 8 .opened, .resume 2, .resume 2,
    .resume 2]

def weChat : Connection where
  id := "gw_2"
  agentId := telegram.agentId
  provider := .wechat

theorem ids_distinct : ([telegram, weChat].map Connection.id).Nodup := by decide

/-- Another gateway of the agent gets a session of its own. -/
def joined : List Action :=
  [.configure { rows := [telegram, weChat], distinct := ids_distinct } ["gw", "gw_2"], .ingest "gw_2" message "up_2" 2,
    .metadata 2 (.ready true), .connected 2 8 .opened, .resume 2, .resume 2, .resume 2]

def wire : String := sessionKey telegram.agentId telegram.id

theorem redelivered_when_lost_reconnected : ∃ s t, (ingress {}).run configured (handedOver ++ reconnected) = some s ∧
    (ingress {}).step s (.closes 8 "code=1006") = some t ∧ s.sessions wire = some 8 ∧ s.latest wire = some 8 ∧
    t.store.statusOf 1 = some .queued ∧ TakenBack s (.closes 8 "code=1006") t 1 := by
  have hmeets : (ingress {}).Meets (KeepsDeliveries {}) configured (handedOver ++ reconnected) := by decide +kernel
  have hrun : ((ingress {}).run configured (handedOver ++ reconnected)).any (fun s =>
      s.sessions wire = some 8 ∧ s.store.statusOf 1 = some .delivering ∧
        KeepsDeliveries {} s (.closes 8 "code=1006") ∧ ((ingress {}).step s (.closes 8 "code=1006")).any (fun t =>
          t.store.statusOf 1 = some .queued) = true) = true := by decide +kernel
  obtain ⟨s, hrun, hstep⟩ := Option.any_eq_true _ _ |>.mp hrun
  obtain ⟨hsession, hdelivering, hkeeps, hstep⟩ := of_decide_eq_true hstep
  obtain ⟨t, hstep, hqueued⟩ := Option.any_eq_true _ _ |>.mp hstep
  have hqueued := of_decide_eq_true hqueued
  obtain ⟨hsessions, -, hback⟩ := redelivered_when_lost configured_idle hmeets hrun
  exact ⟨s, t, hrun, hstep, hsession, (hsessions _ _ 8 hsession).1, hqueued, hback _ t hkeeps hstep 1 hdelivering hqueued⟩

/-- The close of another gateway's socket takes an event back from a socket that is open; the late close of a replaced socket forgets the one that replaced it. -/
theorem other_close_takes_back :
    (∃ s t, (ingress {}).run configured (handedOver ++ joined) = some s ∧
      (ingress {}).step s (.closes 8 "code=1006") = some t ∧ s.store.statusOf 1 = some .delivering ∧
      t.store.statusOf 1 = some .queued ∧ s.carrier 1 = some 7 ∧ t.IsOpen 7 ∧
      ¬ TakenBack s (.closes 8 "code=1006") t 1) ∧
    ∃ s t, (ingress {}).run configured (handedOver ++ replaced) = some s ∧
      (ingress {}).step s (.closes 7 "code=1006") = some t ∧ t.latest wire = some 8 ∧ t.IsOpen 8 ∧ t.sessions wire = none ∧
      s.carrier 2 = some 8 ∧ s.store.statusOf 2 = some .delivering ∧ t.store.statusOf 2 = some .queued := by
  constructor
  · have hrun : ((ingress {}).run configured (handedOver ++ joined)).any (fun s =>
        s.store.statusOf 1 = some .delivering ∧ s.carrier 1 = some 7 ∧
          ((ingress {}).step s (.closes 8 "code=1006")).any (fun t =>
            t.store.statusOf 1 = some .queued ∧ t.IsOpen 7 ∧ ¬ t.IsClosed 7) = true) = true := by decide +kernel
    obtain ⟨s, hrun, hstep⟩ := Option.any_eq_true _ _ |>.mp hrun
    obtain ⟨hdelivering, hcarrier, hstep⟩ := of_decide_eq_true hstep
    obtain ⟨t, hstep, ht⟩ := Option.any_eq_true _ _ |>.mp hstep
    obtain ⟨hqueued, hopen, hnot⟩ := of_decide_eq_true ht
    refine ⟨s, t, hrun, hstep, hdelivering, hqueued, hcarrier, hopen, fun hback => ?_⟩
    obtain hclosed | ⟨hbad | ⟨_, hbad⟩, -⟩ := hback 7 hcarrier
    · exact hnot hclosed
    · cases hbad
    · cases hbad
  · have hrun : ((ingress {}).run configured (handedOver ++ replaced)).any (fun s =>
        s.carrier 2 = some 8 ∧ s.store.statusOf 2 = some .delivering ∧
          ((ingress {}).step s (.closes 7 "code=1006")).any (fun t =>
            t.latest wire = some 8 ∧ t.IsOpen 8 ∧ t.sessions wire = none ∧ t.store.statusOf 2 = some .queued) = true) =
              true := by decide +kernel
    obtain ⟨s, hrun, hstep⟩ := Option.any_eq_true _ _ |>.mp hrun
    obtain ⟨hcarrier, hdelivering, hstep⟩ := of_decide_eq_true hstep
    obtain ⟨t, hstep, ht⟩ := Option.any_eq_true _ _ |>.mp hstep
    obtain ⟨hlast, hopen, hnone, hqueued⟩ := of_decide_eq_true ht
    exact ⟨s, t, hrun, hstep, hlast, hopen, hnone, hcarrier, hdelivering, hqueued⟩

end BotCord.Ingress
